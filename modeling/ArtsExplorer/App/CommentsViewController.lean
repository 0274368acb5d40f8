import ArtsExplorer.App.Models

/-!
# The comments of a post

`CommentsViewController` listens to the approved comments of `postID` and sends new ones.
-/

namespace ArtsExplorer

open Foundations

structure CommentsViewController where
  postID : String := ""
  opName : String := ""
  commentsToShow : RowList Comment := {}
  titleLabel : String := ""
  commentTextField : String := ""
  deriving DecidableEq

namespace CommentsViewController

variable (s : CommentsViewController)

/-- The query of `loadComments()`. -/
def approvedComments (postID : String) : Query :=
  { filters := [.isEqualTo "postID" (.string postID), .isEqualTo "approved" (.bool true)],
    orderBy := "time", descending := true, limit := 20 }

/-- `loadComments()`. -/
def loadComments : List Effect :=
  [.request (.addSnapshotListener .comments (approvedComments s.postID) .comments)]

/-- The closure of `loadComments()`. -/
def loadCommentsReply : Except String (List Document) → Except Fault (After CommentsViewController)
  | .error err => .ok (s, [.createAlert "Error" ("Error getting documents: " ++ err)])
  | .ok documents => do
    let comments ← decodeAll (Comment.ofDocument true) documents
    let commentsToShow ← trapping (s.commentsToShow.removeAll.appendAll comments)
    return ({ s with commentsToShow := commentsToShow }, [])

/-- `viewDidLoad()`, after `prepare(for:)` has set the two variables. -/
def viewDidLoad (postID opName : String) : After CommentsViewController :=
  let s : CommentsViewController :=
    { postID := postID, opName := opName, titleLabel := "Comments on " ++ opName ++ "'s post" }
  (s, s.loadComments)

/-- `sendCommentPressed(_:)`. -/
def sendCommentPressed (env : Env) : Except Fault (After CommentsViewController) :=
  let message := trimmed s.commentTextField
  if message = "" then .ok (s, [.createAlert "Error" Constants.emptyCommentError])
  else do
    let commentID := env.uuid
    let opID ← env.uid
    return (s, [.request (.getDocument .users opID (.commentUser commentID opID message))])

/-- The completion of `getDocument`, with the values it captured. -/
def userReply (env : Env) (commentID opID message : String) :
    Option Document → Except Fault (After CommentsViewController)
  | some document => do
    let opName ← getString document "name"
    return ({ s with commentTextField := "" },
      [.request (.setData .comments commentID
        (commentDocument commentID message opName opID s.postID env.date) .commentSet)])
  | none => .ok (s, [.createAlert "Error" Constants.unknownUserError])

/-- The completion of `setData`. -/
def setReply : Option String → After CommentsViewController
  | some _ => (s, [.createAlert "Error" Constants.postingCommentError])
  | none => (s, [])

end CommentsViewController

end ArtsExplorer
