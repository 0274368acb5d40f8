import ArtsExplorer.App.Models

/-!
# The two moderation screens

`ModerationPostViewController` and `ModerationCommentViewController` are the same controller over
posts and over comments. `PendingList` is that controller, with the collection, the reader, the id
and the texts as a parameter `Queue`; `moderationPost` and `moderationComment` are the two
instances.

The cell of a row captures its `indexPath` in both callbacks. Rows are only ever appended at the end
or discarded all together by `reloadData`, so a row on the screen captured its own number.
-/

namespace ArtsExplorer

open Foundations

/-- What distinguishes the two moderation screens. -/
structure Queue (α : Type) where
  collection : CollectionName
  limit : ℕ
  ofDocument : Document → Except Fault α
  id : α → String
  loadError : String
  denyError : String
  nonePending : String

/-- The array and table of a moderation screen. -/
abbrev PendingList (α : Type) := RowList α

/-- `ModerationPostViewController`. -/
def moderationPost : Queue AEPost where
  collection := .posts
  limit := 15
  ofDocument := AEPost.ofDocument
  id := AEPost.id
  loadError := "Error getting posts: "
  denyError := "Error removing post: "
  nonePending := "There are no posts currently pending."

/-- `ModerationCommentViewController`. -/
def moderationComment : Queue Comment where
  collection := .comments
  limit := 20
  ofDocument := Comment.ofDocument false
  id := Comment.commentID
  loadError := "Error getting comments: "
  denyError := "Error removing comment: "
  nonePending := "There are no comments currently pending."

namespace Queue

variable {α : Type} (m : Queue α) (s : PendingList α)

/-- The query of `loadPendingPosts()` and `loadPendingComments()`. -/
def pending : Query :=
  { filters := [.isEqualTo "approved" (.bool false)], orderBy := "time", descending := false,
    limit := m.limit }

/-- `loadPendingPosts()` or `loadPendingComments()`, also the reload. -/
def loadPending : List Effect := [.request (.getDocuments m.collection m.pending .pending)]

/-- The closure of the load. -/
def loadPendingReply : Except String (List Document) → Except Fault (After (PendingList α))
  | .error err => .ok (s, [.createAlert "Error" (m.loadError ++ err)])
  | .ok documents => do
    let items ← decodeAll m.ofDocument documents
    let s' ← trapping (s.removeAll.appendAll items)
    return (s', if s'.items.isEmpty then [.createAlert "All done!" m.nonePending] else [])

/-- `callBackOnApproveButton` of the cell at `row`. -/
def callBackOnApproveButton (row : ℕ) : Except Fault (After (PendingList α)) := do
  let item ← trapping (s.get row)
  let s' ← trapping (s.removeAt row)
  return (s', [.request (.updateData m.collection (m.id item) [("approved", .value (.bool true))])])

/-- `callBackOnDenyButton` of the cell at `row`. -/
def callBackOnDenyButton (row : ℕ) : Except Fault (After (PendingList α)) := do
  let item ← trapping (s.get row)
  return (s, [.request (.delete m.collection (m.id item) (.denied row))])

/-- The completion of `delete`, with the row it captured. -/
def denyReply (row : ℕ) : Option String → Except Fault (After (PendingList α))
  | some err => .ok (s, [.createAlert "Error" (m.denyError ++ err)])
  | none => do
    let s' ← trapping (s.removeAt row)
    return (s', [])

end Queue

end ArtsExplorer
