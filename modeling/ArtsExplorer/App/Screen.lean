import ArtsExplorer.App.HomeViewController
import ArtsExplorer.App.SavedViewController
import ArtsExplorer.App.UserProfileViewController
import ArtsExplorer.App.UploadViewController
import ArtsExplorer.App.CommentsViewController
import ArtsExplorer.App.ModerationViewControllers
import ArtsExplorer.App.EntryViewControllers

/-!
# Screens

A `Screen` is any of the app's view controllers. Three functions gather the handlers of the
controllers:

* `Screen.load`: the screen a segue creates, with what its `viewDidLoad` calls;
* `Screen.act`: what a screen does on an `Action` of the user or of UIKit, `none` when the action
  is not possible there;
* `Screen.receive`: what a screen's closure does with a reply.

`Screen.Reacts` and `Screen.Receives` have a case for each handler and each closure, by name.
-/

namespace ArtsExplorer

open Foundations

inductive Screen
  /-- `ViewController`, the root of the initial navigation controller. -/
  | initial
  | signUp (s : SignUpViewController)
  | logIn (s : LogInViewController)
  /-- The main tab bar: whether the views of its second and third tab have been loaded. -/
  | tabBar (uploadLoaded profileLoaded : Bool)
  | home (s : HomeViewController)
  | otherProfile (s : OtherProfileViewController)
  | saved (s : SavedViewController)
  | userProfile (s : UserProfileViewController)
  | upload (s : UploadViewController)
  | comments (s : CommentsViewController)
  /-- The storyboard screen with the two buttons that lead to the moderation screens. -/
  | moderation
  | moderationPosts (s : PendingList AEPost)
  | moderationComments (s : PendingList Comment)

/-- The text inputs of the app. -/
inductive TextInput
  | nameTextField
  | emailTextField
  | passwordTextField
  | titleTextField
  | descriptionTextView
  | commentTextField
  | selfName
  | selfBio
  deriving DecidableEq

/-- What the user or UIKit does on a screen. -/
inductive Action
  | table (a : TableAction)
  | didSelectRowAt (row : ℕ)
  /-- Pull to refresh. -/
  | refresh
  | type (field : TextInput) (text : String)
  | back
  | signUpButton
  | logInButton
  | signUpPressed
  | logInPressed
  | uploadTab
  | profileTab
  | tappedMenu
  | didSelectMenuRow (row : ℕ)
  | categoryPressed (b : CategoryButton)
  | didFinishPicking (n : ℕ)
  | pressedClearMedia
  | uploadPressed
  | sendCommentPressed
  | editTapped
  | saveAndCancelTapped
  /-- The download of the picture on a profile screen ends. -/
  | pictureLoaded (found : Bool)
  | moderationPostsButton
  | moderationCommentsButton
  | approve (row : ℕ)
  | deny (row : ℕ)
  deriving DecidableEq

/-- Whether the user does it, so that the screen has to be in front. -/
def Action.byUser : Action → Bool
  | .table a => a.byUser
  | .pictureLoaded _ => false
  | _ => true

/-- The result of a controller's handler as that of its screen. -/
def lift {σ : Type} (f : σ → Screen) (r : Except Fault (After σ)) : Except Fault (After Screen) :=
  r.map fun a => (f a.1, a.2)

namespace Screen

/-- The screen a segue creates, and what its `viewDidLoad` calls. -/
def load (env : Env) : Destination → Except Fault (After Screen)
  | .signUp => .ok (.signUp {}, [])
  | .logIn => .ok (.logIn {}, [])
  | .upload => .ok (.upload UploadViewController.viewDidLoad, [])
  | .userProfile => lift .userProfile (UserProfileViewController.viewDidLoad env)
  | .otherProfile otherUserID otherUserName =>
    lift .otherProfile (.ok (OtherProfileViewController.viewDidLoad otherUserID otherUserName))
  | .saved => lift .saved (SavedViewController.viewDidLoad env)
  | .comments postID opName =>
    lift .comments (.ok (CommentsViewController.viewDidLoad postID opName))
  | .moderation => .ok (.moderation, [])
  | .moderationPosts => .ok (.moderationPosts {}, moderationPost.loadPending)
  | .moderationComments => .ok (.moderationComments {}, moderationComment.loadPending)

/-- The text of an input changes. -/
def type (text : String) : Screen → TextInput → Option Screen
  | .signUp s, .nameTextField => some (.signUp { s with nameTextField := text })
  | .signUp s, .emailTextField => some (.signUp { s with emailTextField := text })
  | .signUp s, .passwordTextField => some (.signUp { s with passwordTextField := text })
  | .logIn s, .emailTextField => some (.logIn { s with emailTextField := text })
  | .logIn s, .passwordTextField => some (.logIn { s with passwordTextField := text })
  | .upload s, .titleTextField => some (.upload { s with titleTextField := text })
  | .upload s, .descriptionTextView => some (.upload { s with descriptionTextView := text })
  | .comments s, .commentTextField => some (.comments { s with commentTextField := text })
  | .userProfile s, .selfName =>
    if s.isUserInteractionEnabled then some (.userProfile { s with selfName := text }) else none
  | .userProfile s, .selfBio =>
    if s.isUserInteractionEnabled then some (.userProfile { s with selfBio := text }) else none
  | _, _ => none

/-- An action on the table of one of the four lists of posts. -/
def tableAct (env : Env) (a : TableAction) : Screen → Option (Except Fault (After Screen))
  | .home s => (s.listing.act env a).map (lift fun l => .home { s with listing := l })
  | .otherProfile s =>
    (s.listing.act env a).map (lift fun l => .otherProfile { s with listing := l })
  | .saved s => (s.listing.act env a).map (lift fun l => .saved { s with listing := l })
  | .userProfile s => (s.listing.act env a).map (lift fun l => .userProfile { s with listing := l })
  | _ => none

/-- The selection of a row, which two of the four lists react to. -/
def didSelectRowAt (row : ℕ) : Screen → Option (Except Fault (After Screen))
  | .home s =>
    if row < s.listing.postsToShow.rowCount then
      some (lift (fun l => .home { s with listing := l }) (s.listing.didSelectRowAt row))
    else none
  | .saved s =>
    if row < s.listing.postsToShow.rowCount then
      some (lift (fun l => .saved { s with listing := l }) (s.listing.didSelectRowAt row))
    else none
  | _ => none

/-- The pull-to-refresh of the screens that have one. -/
def refresh (env : Env) : Screen → Option (Except Fault (After Screen))
  | .home s => some (.ok (.home s, s.reloadPosts))
  | .otherProfile s => some (.ok (.otherProfile s, s.loadPosts))
  | .saved s =>
    some (lift (fun _ => .saved s) ((SavedViewController.loadSavedPosts env).map ((), ·)))
  | .userProfile s => some (.ok (.userProfile s, s.loadPosts))
  | .moderationPosts s => some (.ok (.moderationPosts s, moderationPost.loadPending))
  | .moderationComments s => some (.ok (.moderationComments s, moderationComment.loadPending))
  | _ => none

/-- A screen's reaction to an action; `none` when the action is not possible there. -/
def act (env : Env) : Screen → Action → Option (Except Fault (After Screen))
  | s, .table a => s.tableAct env a
  | s, .didSelectRowAt row => s.didSelectRowAt row
  | s, .refresh => s.refresh env
  | s, .type field text => (s.type text field).map fun s' => .ok (s', [])
  | .signUp s, .back => some (.ok (.signUp s, [.pop]))
  | .logIn s, .back => some (.ok (.logIn s, [.pop]))
  | .initial, .signUpButton => some (.ok (.initial, [.segue .signUp]))
  | .initial, .logInButton => some (.ok (.initial, [.segue .logIn]))
  | .signUp s, .signUpPressed => some (lift .signUp s.signUpPressed)
  | .logIn s, .logInPressed => some (lift .logIn (.ok s.logInPressed))
  | .tabBar false p, .uploadTab => some (.ok (.tabBar true p, [.segue .upload]))
  | .tabBar u false, .profileTab => some (.ok (.tabBar u true, [.segue .userProfile]))
  | .home s, .tappedMenu => some (lift .home (s.tappedMenu env))
  | .home s, .didSelectMenuRow row => (s.didSelectMenuRow env row).map fun r => lift .home (.ok r)
  | .upload s, .categoryPressed b => some (.ok (.upload (s.categoryPressed b), []))
  | .upload s, .didFinishPicking n => some (.ok (.upload (s.didFinishPicking (.picked n)), []))
  | .upload s, .pressedClearMedia => some (.ok (.upload s.pressedClearMedia, []))
  | .upload s, .uploadPressed => some (lift .upload (s.uploadPressed env))
  | .comments s, .sendCommentPressed => some (lift .comments (s.sendCommentPressed env))
  | .userProfile s, .didFinishPicking n =>
    if s.isUserInteractionEnabled then
      some (.ok (.userProfile (s.didFinishPicking (.picked n)), []))
    else none
  | .userProfile s, .editTapped => some (lift .userProfile (s.editTapped env))
  | .userProfile s, .saveAndCancelTapped => some (lift .userProfile (.ok s.saveAndCancelTapped))
  | .userProfile s, .pictureLoaded found =>
    some (.ok (.userProfile { s with selfProfilePicture := s.selfProfilePicture.finishLoad found },
      []))
  | .otherProfile s, .pictureLoaded found =>
    some (.ok (.otherProfile
      { s with profilePictureImageView := s.profilePictureImageView.finishLoad found }, []))
  | .moderation, .moderationPostsButton => some (.ok (.moderation, [.segue .moderationPosts]))
  | .moderation, .moderationCommentsButton => some (.ok (.moderation, [.segue .moderationComments]))
  | .moderationPosts s, .approve row =>
    if row < s.rowCount then
      some (lift .moderationPosts (moderationPost.callBackOnApproveButton s row))
    else none
  | .moderationPosts s, .deny row =>
    if row < s.rowCount then
      some (lift .moderationPosts (moderationPost.callBackOnDenyButton s row))
    else none
  | .moderationComments s, .approve row =>
    if row < s.rowCount then
      some (lift .moderationComments (moderationComment.callBackOnApproveButton s row))
    else none
  | .moderationComments s, .deny row =>
    if row < s.rowCount then
      some (lift .moderationComments (moderationComment.callBackOnDenyButton s row))
    else none
  | _, _ => none

/-- A reply to one of a table's cells. -/
def tableReceive (env : Env) (k : Callback) (r : Reply) :
    Screen → Option (Except Fault (After Screen))
  | .home s => (s.listing.receive env k r).map (lift fun l => .home { s with listing := l })
  | .otherProfile s =>
    (s.listing.receive env k r).map (lift fun l => .otherProfile { s with listing := l })
  | .saved s => (s.listing.receive env k r).map (lift fun l => .saved { s with listing := l })
  | .userProfile s =>
    (s.listing.receive env k r).map (lift fun l => .userProfile { s with listing := l })
  | _ => none

/-- What a screen's closure does with a reply; `none` when the screen has no such closure or the
reply is not of the closure's type. -/
def receive (env : Env) : Screen → Callback → Reply → Option (Except Fault (After Screen))
  | .home s, .homePosts, .documents r => some (lift .home (s.loadPostsReply r))
  | .home s, .menu, .document d =>
    some (lift (fun m => .home { s with leftMenu := m }) (s.leftMenu.viewDidLoadReply d))
  | .otherProfile s, .otherInfo, .document d => some (lift .otherProfile (s.loadInfoReply d))
  | .otherProfile s, .otherPosts, .documents r => some (lift .otherProfile (s.loadPostsReply r))
  | .saved s, .savedUser, .document d => some (lift .saved (s.savedUserReply d))
  | .saved s, .savedPost, .document d => some (lift .saved (s.savedPostReply d))
  | .userProfile s, .profilePosts, .documents r => some (lift .userProfile (s.loadPostsReply r))
  | .userProfile s, .profileInfo, .document d => some (lift .userProfile (s.loadInfoReply d))
  | .userProfile s, .avatarPut, .completion e => some (lift .userProfile (.ok (s.avatarPutReply e)))
  | .upload s, .uploadUser postUUID opID mediaID titleText descriptionText, .document d =>
    some (lift .upload (s.userReply env postUUID opID mediaID titleText descriptionText d))
  | .upload s, .uploadSet, .completion e => some (lift .upload (.ok (s.setReply e)))
  | .upload s, .uploadPut, .completion e => some (lift .upload (.ok (s.putReply e)))
  | .comments s, .comments, .documents r => some (lift .comments (s.loadCommentsReply r))
  | .comments s, .commentUser commentID opID message, .document d =>
    some (lift .comments (s.userReply env commentID opID message d))
  | .comments s, .commentSet, .completion e => some (lift .comments (.ok (s.setReply e)))
  | .moderationPosts s, .pending, .documents r =>
    some (lift .moderationPosts (moderationPost.loadPendingReply s r))
  | .moderationPosts s, .denied row, .completion e =>
    some (lift .moderationPosts (moderationPost.denyReply s row e))
  | .moderationComments s, .pending, .documents r =>
    some (lift .moderationComments (moderationComment.loadPendingReply s r))
  | .moderationComments s, .denied row, .completion e =>
    some (lift .moderationComments (moderationComment.denyReply s row e))
  | .signUp s, .userCreated nameText, .auth r =>
    some (lift .signUp (.ok (s.createdReply nameText r)))
  | .signUp s, .userSet, .completion e => some (lift .signUp (.ok (s.setReply e)))
  | .logIn s, .signedIn, .auth r => some (lift .logIn (.ok (s.signedInReply r)))
  | s, k, r => s.tableReceive env k r

/-! ## The handlers by name -/

/-- What a screen does on an action, by the handler that does it. -/
inductive Reacts (env : Env) : Screen → Action → Except Fault (After Screen) → Prop
  | table {scr x} (a : TableAction) (h : scr.tableAct env a = some x) :
      Reacts env scr (.table a) x
  | didSelectRowAt {scr x} (row : ℕ) (h : scr.didSelectRowAt row = some x) :
      Reacts env scr (.didSelectRowAt row) x
  | refresh {scr x} (h : scr.refresh env = some x) : Reacts env scr .refresh x
  | type {scr x} (field : TextInput) (text : String)
      (h : (scr.type text field).map (fun s' => .ok (s', [])) = some x) :
      Reacts env scr (.type field text) x
  | signUpBack {x} (s : SignUpViewController) (h : .ok (.signUp s, [.pop]) = x) :
      Reacts env (.signUp s) .back x
  | logInBack {x} (s : LogInViewController) (h : .ok (.logIn s, [.pop]) = x) :
      Reacts env (.logIn s) .back x
  | signUpButton {x} (h : .ok (.initial, [.segue .signUp]) = x) :
      Reacts env .initial .signUpButton x
  | logInButton {x} (h : .ok (.initial, [.segue .logIn]) = x) : Reacts env .initial .logInButton x
  | signUpPressed {x} (s : SignUpViewController) (h : lift .signUp s.signUpPressed = x) :
      Reacts env (.signUp s) .signUpPressed x
  | logInPressed {x} (s : LogInViewController) (h : lift .logIn (.ok s.logInPressed) = x) :
      Reacts env (.logIn s) .logInPressed x
  | uploadTab {x} (p : Bool) (h : .ok (.tabBar true p, [.segue .upload]) = x) :
      Reacts env (.tabBar false p) .uploadTab x
  | profileTab {x} (u : Bool) (h : .ok (.tabBar u true, [.segue .userProfile]) = x) :
      Reacts env (.tabBar u false) .profileTab x
  | tappedMenu {x} (s : HomeViewController) (h : lift .home (s.tappedMenu env) = x) :
      Reacts env (.home s) .tappedMenu x
  | didSelectMenuRow {x} (s : HomeViewController) (row : ℕ)
      (h : (s.didSelectMenuRow env row).map (fun r => lift .home (.ok r)) = some x) :
      Reacts env (.home s) (.didSelectMenuRow row) x
  | categoryPressed {x} (s : UploadViewController) (b : CategoryButton)
      (h : .ok (.upload (s.categoryPressed b), []) = x) :
      Reacts env (.upload s) (.categoryPressed b) x
  | imagePicked {x} (s : UploadViewController) (n : ℕ)
      (h : .ok (.upload (s.didFinishPicking (.picked n)), []) = x) :
      Reacts env (.upload s) (.didFinishPicking n) x
  | pressedClearMedia {x} (s : UploadViewController)
      (h : .ok (.upload s.pressedClearMedia, []) = x) :
      Reacts env (.upload s) .pressedClearMedia x
  | uploadPressed {x} (s : UploadViewController) (h : lift .upload (s.uploadPressed env) = x) :
      Reacts env (.upload s) .uploadPressed x
  | sendCommentPressed {x} (s : CommentsViewController)
      (h : lift .comments (s.sendCommentPressed env) = x) :
      Reacts env (.comments s) .sendCommentPressed x
  | avatarPicked {x} (s : UserProfileViewController) (n : ℕ)
      (hon : s.isUserInteractionEnabled = true)
      (h : .ok (.userProfile (s.didFinishPicking (.picked n)), []) = x) :
      Reacts env (.userProfile s) (.didFinishPicking n) x
  | editTapped {x} (s : UserProfileViewController) (h : lift .userProfile (s.editTapped env) = x) :
      Reacts env (.userProfile s) .editTapped x
  | saveAndCancelTapped {x} (s : UserProfileViewController)
      (h : lift .userProfile (.ok s.saveAndCancelTapped) = x) :
      Reacts env (.userProfile s) .saveAndCancelTapped x
  | ownPictureLoaded {x} (s : UserProfileViewController) (found : Bool)
      (h : .ok (.userProfile
        { s with selfProfilePicture := s.selfProfilePicture.finishLoad found }, []) = x) :
      Reacts env (.userProfile s) (.pictureLoaded found) x
  | otherPictureLoaded {x} (s : OtherProfileViewController) (found : Bool)
      (h : .ok (.otherProfile
        { s with profilePictureImageView := s.profilePictureImageView.finishLoad found }, []) = x) :
      Reacts env (.otherProfile s) (.pictureLoaded found) x
  | moderationPostsButton {x} (h : .ok (.moderation, [.segue .moderationPosts]) = x) :
      Reacts env .moderation .moderationPostsButton x
  | moderationCommentsButton {x} (h : .ok (.moderation, [.segue .moderationComments]) = x) :
      Reacts env .moderation .moderationCommentsButton x
  | approvePost {x} (s : PendingList AEPost) (row : ℕ) (hrow : row < s.rowCount)
      (h : lift .moderationPosts (moderationPost.callBackOnApproveButton s row) = x) :
      Reacts env (.moderationPosts s) (.approve row) x
  | denyPost {x} (s : PendingList AEPost) (row : ℕ) (hrow : row < s.rowCount)
      (h : lift .moderationPosts (moderationPost.callBackOnDenyButton s row) = x) :
      Reacts env (.moderationPosts s) (.deny row) x
  | approveComment {x} (s : PendingList Comment) (row : ℕ) (hrow : row < s.rowCount)
      (h : lift .moderationComments (moderationComment.callBackOnApproveButton s row) = x) :
      Reacts env (.moderationComments s) (.approve row) x
  | denyComment {x} (s : PendingList Comment) (row : ℕ) (hrow : row < s.rowCount)
      (h : lift .moderationComments (moderationComment.callBackOnDenyButton s row) = x) :
      Reacts env (.moderationComments s) (.deny row) x

/-- **An action is handled by one of the handlers.** -/
theorem act_cases {env : Env} {scr : Screen} {a : Action} {x : Except Fault (After Screen)}
    (h : scr.act env a = some x) : scr.Reacts env a x := by
  unfold act at h
  split at h
  all_goals
    try split_ifs at h
    first
      | exact .table _ h
      | exact .didSelectRowAt _ h
      | exact .refresh h
      | exact .type _ _ h
      | exact .didSelectMenuRow _ _ h
      | (constructor <;> first | assumption | exact Option.some.inj h)
      | cases h

/-- The pull-to-refresh by screen. -/
inductive Refreshes (env : Env) : Screen → Except Fault (After Screen) → Prop
  | home {x} (s : HomeViewController) (h : .ok (.home s, s.reloadPosts) = x) :
      Refreshes env (.home s) x
  | otherProfile {x} (s : OtherProfileViewController)
      (h : .ok (.otherProfile s, s.loadPosts) = x) : Refreshes env (.otherProfile s) x
  | saved {x} (s : SavedViewController)
      (h : lift (fun _ => .saved s) ((SavedViewController.loadSavedPosts env).map ((), ·)) = x) :
      Refreshes env (.saved s) x
  | userProfile {x} (s : UserProfileViewController) (h : .ok (.userProfile s, s.loadPosts) = x) :
      Refreshes env (.userProfile s) x
  | moderationPosts {x} (s : PendingList AEPost)
      (h : .ok (.moderationPosts s, moderationPost.loadPending) = x) :
      Refreshes env (.moderationPosts s) x
  | moderationComments {x} (s : PendingList Comment)
      (h : .ok (.moderationComments s, moderationComment.loadPending) = x) :
      Refreshes env (.moderationComments s) x

theorem refresh_cases {env : Env} {scr : Screen} {x : Except Fault (After Screen)}
    (h : scr.refresh env = some x) : scr.Refreshes env x := by
  unfold refresh at h
  split at h
  all_goals
    first
      | (constructor; exact Option.some.inj h)
      | cases h

/-- What a screen does with a reply, by the closure that gets it. -/
inductive Receives (env : Env) : Screen → Callback → Reply → Except Fault (After Screen) → Prop
  | homePosts {x} (s : HomeViewController) (r : Except String (List Document))
      (h : lift .home (s.loadPostsReply r) = x) : Receives env (.home s) .homePosts (.documents r) x
  | menu {x} (s : HomeViewController) (d : Option Document)
      (h : lift (fun m => .home { s with leftMenu := m }) (s.leftMenu.viewDidLoadReply d) = x) :
      Receives env (.home s) .menu (.document d) x
  | otherInfo {x} (s : OtherProfileViewController) (d : Option Document)
      (h : lift .otherProfile (s.loadInfoReply d) = x) :
      Receives env (.otherProfile s) .otherInfo (.document d) x
  | otherPosts {x} (s : OtherProfileViewController) (r : Except String (List Document))
      (h : lift .otherProfile (s.loadPostsReply r) = x) :
      Receives env (.otherProfile s) .otherPosts (.documents r) x
  | savedUser {x} (s : SavedViewController) (d : Option Document)
      (h : lift .saved (s.savedUserReply d) = x) :
      Receives env (.saved s) .savedUser (.document d) x
  | savedPost {x} (s : SavedViewController) (d : Option Document)
      (h : lift .saved (s.savedPostReply d) = x) :
      Receives env (.saved s) .savedPost (.document d) x
  | profilePosts {x} (s : UserProfileViewController) (r : Except String (List Document))
      (h : lift .userProfile (s.loadPostsReply r) = x) :
      Receives env (.userProfile s) .profilePosts (.documents r) x
  | profileInfo {x} (s : UserProfileViewController) (d : Option Document)
      (h : lift .userProfile (s.loadInfoReply d) = x) :
      Receives env (.userProfile s) .profileInfo (.document d) x
  | avatarPut {x} (s : UserProfileViewController) (e : Option String)
      (h : lift .userProfile (.ok (s.avatarPutReply e)) = x) :
      Receives env (.userProfile s) .avatarPut (.completion e) x
  | uploadUser {x} (s : UploadViewController)
      (postUUID opID mediaID titleText descriptionText : String) (d : Option Document)
      (h : lift .upload (s.userReply env postUUID opID mediaID titleText descriptionText d) = x) :
      Receives env (.upload s) (.uploadUser postUUID opID mediaID titleText descriptionText)
        (.document d) x
  | uploadSet {x} (s : UploadViewController) (e : Option String)
      (h : lift .upload (.ok (s.setReply e)) = x) :
      Receives env (.upload s) .uploadSet (.completion e) x
  | uploadPut {x} (s : UploadViewController) (e : Option String)
      (h : lift .upload (.ok (s.putReply e)) = x) :
      Receives env (.upload s) .uploadPut (.completion e) x
  | comments {x} (s : CommentsViewController) (r : Except String (List Document))
      (h : lift .comments (s.loadCommentsReply r) = x) :
      Receives env (.comments s) .comments (.documents r) x
  | commentUser {x} (s : CommentsViewController) (commentID opID message : String)
      (d : Option Document) (h : lift .comments (s.userReply env commentID opID message d) = x) :
      Receives env (.comments s) (.commentUser commentID opID message) (.document d) x
  | commentSet {x} (s : CommentsViewController) (e : Option String)
      (h : lift .comments (.ok (s.setReply e)) = x) :
      Receives env (.comments s) .commentSet (.completion e) x
  | pendingPosts {x} (s : PendingList AEPost) (r : Except String (List Document))
      (h : lift .moderationPosts (moderationPost.loadPendingReply s r) = x) :
      Receives env (.moderationPosts s) .pending (.documents r) x
  | deniedPost {x} (s : PendingList AEPost) (row : ℕ) (e : Option String)
      (h : lift .moderationPosts (moderationPost.denyReply s row e) = x) :
      Receives env (.moderationPosts s) (.denied row) (.completion e) x
  | pendingComments {x} (s : PendingList Comment) (r : Except String (List Document))
      (h : lift .moderationComments (moderationComment.loadPendingReply s r) = x) :
      Receives env (.moderationComments s) .pending (.documents r) x
  | deniedComment {x} (s : PendingList Comment) (row : ℕ) (e : Option String)
      (h : lift .moderationComments (moderationComment.denyReply s row e) = x) :
      Receives env (.moderationComments s) (.denied row) (.completion e) x
  | userCreated {x} (s : SignUpViewController) (nameText : String) (r : Except String String)
      (h : lift .signUp (.ok (s.createdReply nameText r)) = x) :
      Receives env (.signUp s) (.userCreated nameText) (.auth r) x
  | userSet {x} (s : SignUpViewController) (e : Option String)
      (h : lift .signUp (.ok (s.setReply e)) = x) :
      Receives env (.signUp s) .userSet (.completion e) x
  | signedIn {x} (s : LogInViewController) (r : Except String String)
      (h : lift .logIn (.ok (s.signedInReply r)) = x) :
      Receives env (.logIn s) .signedIn (.auth r) x
  /-- A closure of a cell. -/
  | table {scr k r x} (h : scr.tableReceive env k r = some x) : Receives env scr k r x

/-- **A reply is taken by one of the closures.** -/
theorem receive_cases {env : Env} {scr : Screen} {k : Callback} {r : Reply}
    {x : Except Fault (After Screen)} (h : scr.receive env k r = some x) :
    scr.Receives env k r x := by
  unfold receive at h
  split at h
  all_goals
    first
      | exact .table h
      | (constructor; exact Option.some.inj h)

end Screen

end ArtsExplorer
