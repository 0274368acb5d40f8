import ArtsExplorer.App.PostTableViewCell

/-!
# The signed-in user's own profile

`UserProfileViewController` lists the user's own posts, pending ones included, and edits the user
document. `listing.opID` is the source's `opID`: `viewDidLoad` sets it to the signed-in user,
`prepareInfo` overwrites it from a row, and both the query for the posts and the edit's
`updateData` use it.
-/

namespace ArtsExplorer

open Foundations

structure UserProfileViewController where
  listing : PostListing := {}
  selfProfilePicture : UIImageView := {}
  selfName : String := "Name"
  selfBio : String := "Bio"
  /-- Of `selfName`, `selfBio` and `selfProfilePicture`, which are always set together. -/
  isUserInteractionEnabled : Bool := false
  editingMode : Bool := false
  originalNameText : String := ""
  originalBioText : String := ""
  originalAvatar : Option UIImage := none
  deriving DecidableEq

namespace UserProfileViewController

variable (s : UserProfileViewController)

/-- The query of `loadPosts()`. -/
def postsBy (opID : String) : Query :=
  { filters := [.isEqualTo "opID" (.string opID)], orderBy := "time", descending := true,
    limit := 15 }

/-- `loadPosts()`, also `reloadPosts(_:)`. -/
def loadPosts : List Effect :=
  [.request (.getDocuments .posts (postsBy s.listing.opID) .profilePosts)]

/-- The closure of `loadPosts()`, which does not empty the list first. -/
def loadPostsReply : Except String (List Document) → Except Fault (After UserProfileViewController)
  | .error err => .ok (s, [.createAlert "Error" ("Error getting posts: " ++ err)])
  | .ok documents => do
    let listing ← s.listing.showAll documents
    return ({ s with listing := listing }, [])

/-- `loadInfo()`. -/
def loadInfo : List Effect := [.request (.getDocument .users s.listing.opID .profileInfo)]

/-- The closure of `loadInfo()`. -/
def loadInfoReply : Option Document → Except Fault (After UserProfileViewController)
  | some document => do
    let opName ← getString document "name"
    let opBio ← getString document "bio"
    let opAvatarID ← getString document "avatarID"
    let picture :=
      if opAvatarID ≠ "" then
        s.selfProfilePicture.sd_setImage ("avatars/" ++ opAvatarID) (some placeholderProfile)
      else s.selfProfilePicture.setImage (some placeholderProfile)
    return ({ s with selfName := opName, selfBio := opBio, selfProfilePicture := picture }, [])
  | none => .ok (s, [.createAlert "Error" Constants.unknownUserError])

/-- `viewDidLoad()`. -/
def viewDidLoad (env : Env) : Except Fault (After UserProfileViewController) := do
  let opID ← env.uid
  let s : UserProfileViewController := { listing := { opID := opID } }
  return (s, s.loadPosts ++ s.loadInfo)

/-- `changesDict` before the picture is looked at. -/
def textChanges : List (String × FieldValue) :=
  (if s.selfBio ≠ s.originalBioText then [("bio", .value (.string s.selfBio))] else []) ++
    (if s.selfName ≠ s.originalNameText then [("name", .value (.string s.selfName))] else [])

/-- `editTapped(_:)` in editing mode: leave it and send the changes. -/
def commit (env : Env) : Except Fault (After UserProfileViewController) :=
  let s' := { s with editingMode := false, isUserInteractionEnabled := false }
  match s.selfProfilePicture.image with
  | none => .error .nilImage
  | some newAvatar =>
    if some newAvatar ≠ s.originalAvatar then
      if env.jpegData then
        .ok (s',
          [.request (.putData ("avatars/" ++ env.uuid) newAvatar .avatarPut),
           .request (.updateData .users s.listing.opID
             (s.textChanges ++ [("avatarID", .value (.string env.uuid))]))])
      else
        -- the `guard` returns from `editTapped`, before any change is sent
        .ok (s', [])
    else if s.textChanges.isEmpty then .ok (s', [])
    else .ok (s', [.request (.updateData .users s.listing.opID s.textChanges)])

/-- `editTapped(_:)` outside editing mode: remember the current values. -/
def startEditing : Except Fault (After UserProfileViewController) :=
  match s.selfProfilePicture.image with
  | none => .error .nilImage
  | some avatar =>
    .ok ({ s with
      originalNameText := s.selfName, originalBioText := s.selfBio, originalAvatar := some avatar,
      editingMode := true, isUserInteractionEnabled := true }, [])

/-- `editTapped(_:)`. -/
def editTapped (env : Env) : Except Fault (After UserProfileViewController) :=
  if s.editingMode then s.commit env else s.startEditing

/-- The completion of `putData`. -/
def avatarPutReply : Option String → After UserProfileViewController
  | some error => (s, [.createAlert "Error" ("Error uploading image: " ++ error)])
  | none => (s, [.createAlert "Success" "New profile picture succcessfully uploaded."])

/-- `imagePickerController(_:didFinishPickingMediaWithInfo:)`. -/
def didFinishPicking (imageValue : UIImage) : UserProfileViewController :=
  { s with selfProfilePicture := s.selfProfilePicture.setImage (some imageValue) }

/-- `saveAndCancelTapped(_:)`. -/
def saveAndCancelTapped : After UserProfileViewController :=
  if s.editingMode then
    ({ s with
      editingMode := false, isUserInteractionEnabled := false,
      selfName := s.originalNameText, selfBio := s.originalBioText,
      selfProfilePicture := s.selfProfilePicture.setImage s.originalAvatar }, [])
  else (s, [.segue .saved])

end UserProfileViewController

end ArtsExplorer
