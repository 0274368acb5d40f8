import ArtsExplorer.App.PostTableViewCell

/-!
# The saved posts and the profile of another user

`SavedViewController` reads the signed-in user's document and then each saved post by its id;
`OtherProfileViewController` shows the approved posts of one author.
-/

namespace ArtsExplorer

open Foundations

structure SavedViewController where
  listing : PostListing := {}
  savedPosts : List String := []
  deriving DecidableEq

namespace SavedViewController

variable (s : SavedViewController)

/-- `loadSavedPosts()`. -/
def loadSavedPosts (env : Env) : Except Fault (List Effect) := do
  let opID ← env.uid
  return [.request (.getDocument .users opID .savedUser)]

/-- The outer closure of `loadSavedPosts()`. -/
def savedUserReply : Option Document → Except Fault (After SavedViewController)
  | some document => do
    let savedPosts ← getArray document "savedPosts"
    return ({ s with savedPosts := savedPosts, listing := s.listing.removeAll },
      savedPosts.map fun postID => .request (.getDocument .posts postID .savedPost))
  | none => .ok (s, [.createAlert "Error" "Saved posts could not be retrieved."])

/-- The inner closure of `loadSavedPosts()`. -/
def savedPostReply : Option Document → Except Fault (After SavedViewController)
  | some document => do
    let listing ← s.listing.showAll [document]
    return ({ s with listing := listing }, [])
  | none => .ok (s, [.createAlert "Error" "Saved posts could not be retrieved."])

/-- `viewDidLoad()`. -/
def viewDidLoad (env : Env) : Except Fault (After SavedViewController) := do
  let effects ← loadSavedPosts env
  return ({}, effects)

end SavedViewController

structure OtherProfileViewController where
  listing : PostListing := {}
  otherUserID : String := ""
  otherUserName : String := ""
  nameLabel : String := ""
  bioLabel : String := ""
  profilePictureImageView : UIImageView := {}
  deriving DecidableEq

namespace OtherProfileViewController

variable (s : OtherProfileViewController)

/-- The query of `loadPosts()`. -/
def approvedPostsBy (otherUserID : String) : Query :=
  { filters := [.isEqualTo "opID" (.string otherUserID), .isEqualTo "approved" (.bool true)],
    orderBy := "time", descending := true, limit := 15 }

/-- `loadInfo()`. -/
def loadInfo : List Effect := [.request (.getDocument .users s.otherUserID .otherInfo)]

/-- The closure of `loadInfo()`. -/
def loadInfoReply : Option Document → Except Fault (After OtherProfileViewController)
  | some document => do
    let opName ← getString document "name"
    let opBio ← getString document "bio"
    let opAvatarID ← getString document "avatarID"
    let picture :=
      if opAvatarID ≠ "" then
        s.profilePictureImageView.sd_setImage ("avatars/" ++ opAvatarID) (some placeholderProfile)
      else s.profilePictureImageView.setImage (some placeholderProfile)
    return ({ s with nameLabel := opName, bioLabel := opBio, profilePictureImageView := picture },
      [])
  | none => .ok (s, [.createAlert "Error" Constants.unknownUserError])

/-- `loadPosts()`, also `reloadPosts(_:)`. -/
def loadPosts : List Effect :=
  [.request (.getDocuments .posts (approvedPostsBy s.otherUserID) .otherPosts)]

/-- The closure of `loadPosts()`, which does not empty the list first. -/
def loadPostsReply : Except String (List Document) → Except Fault (After OtherProfileViewController)
  | .error err => .ok (s, [.createAlert "Error" ("Error getting posts: " ++ err)])
  | .ok documents => do
    let listing ← s.listing.showAll documents
    return ({ s with listing := listing }, [])

/-- `viewDidLoad()`, after `prepare(for:)` has set the two variables. -/
def viewDidLoad (otherUserID otherUserName : String) : After OtherProfileViewController :=
  let s : OtherProfileViewController :=
    { otherUserID := otherUserID, otherUserName := otherUserName }
  (s, s.loadInfo ++ s.loadPosts)

end OtherProfileViewController

end ArtsExplorer
