import ArtsExplorer.App.Models

/-!
# The post cell and the lists of posts

`PostTableViewCell` is the reusable cell with the save button. Home, Saved, OtherProfile and
UserProfile show posts in the same way: an array `postsToShow` behind a table of such cells, and
the three variables `opID`, `opName`, `postID` that `prepareInfo` copies from a row before a segue.
`PostListing` is that common part; the four controllers add their own loaders to it.

A cell is known to its closures by its number in `PostListing.cells`, the cells the table has
created so far. UIKit shows a cell at a row (`cellForRowAt`, on a new cell or on one from the reuse
pool) and takes it back to the pool when it scrolls out or the table is reloaded.
-/

namespace ArtsExplorer

open Foundations

/-- The save button: its selection and its background image. -/
structure SaveButton where
  isSelected : Bool := false
  backgroundImage : String := "bookmark"
  deriving DecidableEq

structure PostTableViewCell where
  userImageView : UIImageView := {}
  postImageView : UIImageView := {}
  userTopLabel : String := "User's name"
  titleText : String := "Label"
  descriptionText : String := "Label"
  saveButton : SaveButton := {}
  /-- The row the closure captured. -/
  callBackOnCommentButton : Option ℕ := none
  postID : String := ""
  /-- The row the cell is shown at; `none` in the reuse pool. -/
  row : Option ℕ := none
  deriving DecidableEq

namespace PostTableViewCell

/-- `configure(with:)` of the table's `k`-th cell. -/
def configure (cell : PostTableViewCell) (k : ℕ) (model : AEPost) :
    After PostTableViewCell :=
  ({ cell with
      postImageView :=
        if model.mediaID ≠ "" then cell.postImageView.sd_setImage ("posts/" ++ model.id) none
        else cell.postImageView.setImage none
      userTopLabel := model.opName
      titleText := model.title
      descriptionText := model.description
      postID := model.id },
   [.request (.getDocument .users model.opID (.cellAvatar k))])

/-- `fillSaveButtons(currentUser:)`. -/
def fillSaveButtons (k : ℕ) (currentUser : String) : List Effect :=
  [.request (.getDocument .users currentUser (.cellSavedPosts k))]

/-- The closure of `configure(with:)`. -/
def configureReply (env : Env) (cell : PostTableViewCell) (k : ℕ) :
    Option Document → Except Fault (After PostTableViewCell)
  | some document => do
    let avatarID ← getString document "avatarID"
    let userImageView :=
      if avatarID ≠ "" then
        cell.userImageView.sd_setImage ("avatars/" ++ avatarID) (some placeholderProfile)
      else cell.userImageView.setImage (some placeholderProfile)
    let opID ← env.uid
    return ({ cell with userImageView := userImageView }, fillSaveButtons k opID)
  | none => .ok ({ cell with titleText := Constants.postNotFoundError }, [])

/-- The closure of `fillSaveButtons(currentUser:)`. -/
def fillSaveButtonsReply (cell : PostTableViewCell) :
    Option Document → Except Fault PostTableViewCell
  | some document => do
    let savedPosts ← getArray document "savedPosts"
    let image := if cell.postID ∈ savedPosts then "bookmark.fill" else "bookmark"
    return { cell with saveButton := { cell.saveButton with backgroundImage := image } }
  | none => .ok cell

/-- `pressedSaveButton(_:)`. -/
def pressedSaveButton (env : Env) (cell : PostTableViewCell) :
    Except Fault (After PostTableViewCell) := do
  let opID ← env.uid
  if cell.saveButton.isSelected then
    return ({ cell with saveButton := { isSelected := false, backgroundImage := "bookmark" } },
      [.request (.updateData .users opID [("savedPosts", .arrayRemove [cell.postID])])])
  else
    return ({ cell with saveButton := { isSelected := true, backgroundImage := "bookmark.fill" } },
      [.request (.updateData .users opID [("savedPosts", .arrayUnion [cell.postID])])])

/-- `prepareForReuse()`. -/
def prepareForReuse (env : Env) (k : ℕ) : Except Fault (List Effect) := do
  let opID ← env.uid
  return fillSaveButtons k opID

end PostTableViewCell

/-- The part that the four lists of posts have in common. -/
structure PostListing where
  postsToShow : RowList AEPost := {}
  cells : List PostTableViewCell := []
  opID : String := ""
  opName : String := ""
  postID : String := ""
  deriving DecidableEq

/-- What UIKit and the user do to a table of posts. -/
inductive TableAction
  /-- The table asks for the cell of a row; `reuse` is the pooled cell it dequeues, if any. -/
  | cellForRowAt (row : ℕ) (reuse : Option ℕ)
  | didEndDisplaying (cell : ℕ)
  /-- An image download of a cell ends: that of the post's image or of the avatar. -/
  | imageLoaded (cell : ℕ) (ofPost found : Bool)
  | pressedSaveButton (cell : ℕ)
  | pressedViewComments (cell : ℕ)
  deriving DecidableEq

/-- Whether the user does it, so that the screen has to be in front. -/
def TableAction.byUser : TableAction → Bool
  | .pressedSaveButton _ | .pressedViewComments _ => true
  | _ => false

namespace PostListing

variable (l : PostListing)

/-- `postsToShow.removeAll()` and `reloadData()`: every cell goes back to the reuse pool. -/
def removeAll : PostListing :=
  { l with
    postsToShow := l.postsToShow.removeAll
    cells := l.cells.map fun cell => { cell with row := none } }

/-- The loop over the documents of a query's answer. -/
def showAll (documents : List Document) : Except Fault PostListing := do
  let posts ← decodeAll AEPost.ofDocument documents
  let postsToShow ← trapping (l.postsToShow.appendAll posts)
  return { l with postsToShow := postsToShow }

/-- `prepareInfo(indexPath:)`. -/
def prepareInfo (row : ℕ) : Except Fault PostListing := do
  let post ← trapping (l.postsToShow.get row)
  return { l with opID := post.opID, opName := post.opName, postID := post.id }

/-- `dequeueReusableCell(withIdentifier:for:)`: the cells with the dequeued one among them, its
number, and what `prepareForReuse` called. -/
def dequeue (env : Env) (reuse : Option ℕ) :
    Except Fault (List PostTableViewCell × ℕ × List Effect) :=
  match reuse with
  | none => .ok (l.cells ++ [{}], l.cells.length, [])
  | some k => do
    let effects ← PostTableViewCell.prepareForReuse env k
    return (l.cells, k, effects)

/-- `tableView(_:cellForRowAt:)`. -/
def cellForRowAt (env : Env) (row : ℕ) (reuse : Option ℕ) : Except Fault (After PostListing) := do
  let (cells, k, reused) ← l.dequeue env reuse
  let post ← trapping (l.postsToShow.get row)
  let (cell, effects) := (cells.getD k {}).configure k post
  return ({ l with
      cells := cells.set k { cell with callBackOnCommentButton := some row, row := some row } },
    reused ++ effects)

/-- `callBackOnCommentButton` with the row it captured, and the `prepare(for:)` of its segue. -/
def callBackOnCommentButton (row : ℕ) : Except Fault (After PostListing) := do
  let l' ← l.prepareInfo row
  return (l', [.segue (.comments l'.postID l'.opName)])

/-- `tableView(_:didSelectRowAt:)` and the `prepare(for:)` of its segue. -/
def didSelectRowAt (row : ℕ) : Except Fault (After PostListing) := do
  let l' ← l.prepareInfo row
  return (l', [.segue (.otherProfile l'.opID l'.opName)])

/-- The image view whose download ends. -/
def finishLoad (cell : PostTableViewCell) (ofPost found : Bool) : PostTableViewCell :=
  if ofPost then { cell with postImageView := cell.postImageView.finishLoad found }
  else { cell with userImageView := cell.userImageView.finishLoad found }

/-- A step of the table, where it is possible: a row is shown by one cell at a time, a reused cell
comes from the pool, and only a cell on the screen can be pressed. -/
def act (env : Env) : TableAction → Option (Except Fault (After PostListing))
  | .cellForRowAt row reuse =>
    if row < l.postsToShow.rowCount ∧ (∀ cell ∈ l.cells, cell.row ≠ some row) ∧
        (∀ k ∈ reuse, ∃ cell ∈ l.cells[k]?, cell.row = none) then
      some (l.cellForRowAt env row reuse)
    else none
  | .didEndDisplaying k =>
    (l.cells[k]?).map fun cell =>
      .ok ({ l with cells := l.cells.set k { cell with row := none } }, [])
  | .imageLoaded k ofPost found =>
    (l.cells[k]?).map fun cell =>
      .ok ({ l with cells := l.cells.set k (finishLoad cell ofPost found) }, [])
  | .pressedSaveButton k =>
    match l.cells[k]? with
    | some cell =>
      if cell.row = none then none
      else some do
        let (cell, effects) ← cell.pressedSaveButton env
        return ({ l with cells := l.cells.set k cell }, effects)
    | none => none
  | .pressedViewComments k =>
    match l.cells[k]? with
    | some cell =>
      if cell.row = none then none
      else
        match cell.callBackOnCommentButton with
        | some row => some (l.callBackOnCommentButton row)
        | none => some (.ok (l, []))
    | none => none

/-- An answer to a closure of one of the table's cells. -/
def receive (env : Env) : Callback → Reply → Option (Except Fault (After PostListing))
  | .cellAvatar k, .document document =>
    (l.cells[k]?).map fun cell => do
      let (cell, effects) ← cell.configureReply env k document
      return ({ l with cells := l.cells.set k cell }, effects)
  | .cellSavedPosts k, .document document =>
    (l.cells[k]?).map fun cell => do
      let cell ← cell.fillSaveButtonsReply document
      return ({ l with cells := l.cells.set k cell }, [])
  | _, _ => none

end PostListing

end ArtsExplorer
