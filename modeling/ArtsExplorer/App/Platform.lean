import ArtsExplorer.Foundations.DocumentStore
import ArtsExplorer.Foundations.RowList

/-!
# What the app's code runs on

The app is event driven: UIKit calls a handler of a view controller, the handler changes the
controller, calls the backend (Firestore, Storage, Auth) with a closure for the answer, and tells
UIKit to show or leave screens. A handler is here a function to `Except Fault (After σ)`: a run-time
fault, or the new state of the controller with the `Effect`s it had, in order. A closure is a
`Callback`, a constructor per closure of the source with the values it captures besides `self`; the
`Reply` is what it is called with.

What a handler reads from outside its controller (the signed-in user, a fresh `UUID()`, the date,
whether `jpegData` and `signOut` succeed) is its environment `Env`.
-/

namespace ArtsExplorer

open Foundations

/-! ## Faults -/

/-- The ways the app's process ends: a force unwrap of `nil`, a failed force cast, a trap. -/
inductive Fault
  /-- `Auth.auth().currentUser!` with nobody signed in. -/
  | nilUser
  /-- `image!` of an image view without image. -/
  | nilImage
  /-- `document.get(field) as! T` on a missing field or a field of another type. -/
  | cast (field : String)
  | trap (t : Trap)
  deriving DecidableEq

/-- A handler that went through went through in its first part and then in the rest. -/
@[simp] theorem bind_eq_ok {α β : Type} {x : Except Fault α} {f : α → Except Fault β} {b : β} :
    (x >>= f) = .ok b ↔ ∃ a, x = .ok a ∧ f a = .ok b := by
  cases x <;> simp [bind, Except.bind]

/-- It fails in its first part or in the rest. -/
@[simp] theorem bind_eq_error {α β : Type} {x : Except Fault α} {g : α → Except Fault β}
    {f : Fault} :
    (x >>= g) = .error f ↔ x = .error f ∨ ∃ a, x = .ok a ∧ g a = .error f := by
  cases x <;> simp [bind, Except.bind]

@[simp] theorem pure_ne_error {α : Type} {a : α} {f : Fault} :
    (pure a : Except Fault α) ≠ .error f := by
  simp [pure, Except.pure]

@[simp] theorem pure_eq_ok {α : Type} {a b : α} : (pure a : Except Fault α) = .ok b ↔ a = b := by
  simp [pure, Except.pure]

/-- A controller operation of the table view layer, as a step of a handler. -/
def trapping {α : Type} : Except Trap α → Except Fault α
  | .ok a => .ok a
  | .error t => .error (.trap t)

@[simp] theorem trapping_eq_ok {α : Type} {x : Except Trap α} {a : α} :
    trapping x = .ok a ↔ x = .ok a := by
  cases x <;> simp [trapping]

@[simp] theorem trapping_eq_error {α : Type} {x : Except Trap α} {f : Fault} :
    trapping x = .error f ↔ ∃ t, x = .error t ∧ f = .trap t := by
  cases x <;> simp [trapping, eq_comm]

/-! ## Force casts -/

/-- `document.get(k) as! String`. -/
def getString (d : Document) (k : String) : Except Fault String :=
  match d k with
  | some (.string s) => .ok s
  | _ => .error (.cast k)

/-- `document.get(k) as! Bool`. -/
def getBool (d : Document) (k : String) : Except Fault Bool :=
  match d k with
  | some (.bool b) => .ok b
  | _ => .error (.cast k)

/-- `document.get(k) as! Array<String>`. -/
def getArray (d : Document) (k : String) : Except Fault (List String) :=
  match d k with
  | some (.array xs) => .ok xs
  | _ => .error (.cast k)

/-- `document.get(k) as! Timestamp`. -/
def getTimestamp (d : Document) (k : String) : Except Fault ℕ :=
  match d k with
  | some (.timestamp t) => .ok t
  | _ => .error (.cast k)

@[simp] theorem getString_eq_ok {d : Document} {k s : String} :
    getString d k = .ok s ↔ d k = some (.string s) := by
  unfold getString
  split
  · next h => simp [h]
  · next h => simpa using fun h' => h s h'

@[simp] theorem getBool_eq_ok {d : Document} {k : String} {b : Bool} :
    getBool d k = .ok b ↔ d k = some (.bool b) := by
  unfold getBool
  split
  · next h => simp [h]
  · next h => simpa using fun h' => h b h'

@[simp] theorem getArray_eq_ok {d : Document} {k : String} {xs : List String} :
    getArray d k = .ok xs ↔ d k = some (.array xs) := by
  unfold getArray
  split
  · next h => simp [h]
  · next h => simpa using fun h' => h xs h'

@[simp] theorem getTimestamp_eq_ok {d : Document} {k : String} {t : ℕ} :
    getTimestamp d k = .ok t ↔ d k = some (.timestamp t) := by
  unfold getTimestamp
  split
  · next h => simp [h]
  · next h => simpa using fun h' => h t h'

/-- A step that fails, fails by a force cast. -/
def Casts {α : Type} (x : Except Fault α) : Prop := ∀ f, x = .error f → ∃ k, f = .cast k

theorem Casts.pure {α : Type} (a : α) : Casts (pure a) := by
  intro f h
  cases h

theorem Casts.bind {α β : Type} {x : Except Fault α} {g : α → Except Fault β} (hx : Casts x)
    (hg : ∀ a, Casts (g a)) : Casts (x >>= g) := by
  intro f h
  cases x with
  | error f' =>
    cases h
    exact hx f rfl
  | ok a => exact hg a f h

theorem casts_getString (d : Document) (k : String) : Casts (getString d k) := by
  intro f h
  unfold getString at h
  split at h
  · cases h
  · cases h
    exact ⟨k, rfl⟩

theorem casts_getBool (d : Document) (k : String) : Casts (getBool d k) := by
  intro f h
  unfold getBool at h
  split at h
  · cases h
  · cases h
    exact ⟨k, rfl⟩

theorem casts_getArray (d : Document) (k : String) : Casts (getArray d k) := by
  intro f h
  unfold getArray at h
  split at h
  · cases h
  · cases h
    exact ⟨k, rfl⟩

theorem casts_getTimestamp (d : Document) (k : String) : Casts (getTimestamp d k) := by
  intro f h
  unfold getTimestamp at h
  split at h
  · cases h
  · cases h
    exact ⟨k, rfl⟩

/-! ## Text -/

/-- `CharacterSet.whitespacesAndNewlines`: the Unicode separators and the control characters that
break lines or tabulate. -/
def isWhitespaceOrNewline (c : Char) : Bool :=
  let n := c.toNat
  (0x9 ≤ n && n ≤ 0xD) || n == 0x20 || n == 0x85 || n == 0xA0 || n == 0x1680 ||
    (0x2000 ≤ n && n ≤ 0x200A) || n == 0x2028 || n == 0x2029 || n == 0x202F || n == 0x205F ||
    n == 0x3000

/-- `trimmingCharacters(in: .whitespacesAndNewlines)`. -/
def trimmed (s : String) : String :=
  String.ofList
    (((s.toList.dropWhile isWhitespaceOrNewline).reverse.dropWhile isWhitespaceOrNewline).reverse)

/-- `lowercased()`, of ASCII: the app takes it of the titles of its buttons and menu rows. -/
def lowercased (s : String) : String := String.ofList (s.toList.map Char.toLower)

/-! ## Images -/

/-- An image: an asset by name, an object downloaded from a Storage path, or a picked one. -/
inductive UIImage
  | named (name : String)
  | stored (path : String)
  | picked (n : ℕ)
  deriving DecidableEq

/-- `UIImage(named: "placeholder-post")`. -/
def placeholderPost : UIImage := .named "placeholder-post"

/-- `UIImage(named: "placeholder-profile")`. -/
def placeholderProfile : UIImage := .named "placeholder-profile"

/-- An image view: the image it shows and the Storage path whose download it awaits. -/
structure UIImageView where
  image : Option UIImage := none
  loading : Option String := none
  deriving DecidableEq

namespace UIImageView

/-- `sd_setImage(with:placeholderImage:)`: the placeholder now, the object when it arrives. A
download still awaited by the view is cancelled. -/
def sd_setImage (_ : UIImageView) (path : String) (placeholder : Option UIImage) : UIImageView :=
  { image := placeholder, loading := some path }

/-- Assigning `image` leaves an awaited download in flight. -/
def setImage (v : UIImageView) (i : Option UIImage) : UIImageView := { v with image := i }

/-- The awaited download ends. -/
def finishLoad (v : UIImageView) (found : Bool) : UIImageView :=
  match v.loading with
  | some path => { image := if found then some (.stored path) else v.image, loading := none }
  | none => v

end UIImageView

/-! ## The backend's interface -/

/-- The Firestore collections. -/
inductive CollectionName
  | users
  | posts
  | comments
  deriving DecidableEq

/-- The closures that answers are delivered to. -/
inductive Callback
  /-- `PostTableViewCell.configure`, of the table's `cell`-th cell. -/
  | cellAvatar (cell : ℕ)
  /-- `PostTableViewCell.fillSaveButtons`. -/
  | cellSavedPosts (cell : ℕ)
  /-- `HomeViewController.loadPosts` and `loadSpecificPosts`, whose closures are the same. -/
  | homePosts
  /-- `MenuListController.viewDidLoad`. -/
  | menu
  /-- `OtherProfileViewController.loadInfo`. -/
  | otherInfo
  /-- `OtherProfileViewController.loadPosts`. -/
  | otherPosts
  /-- `SavedViewController.loadSavedPosts`, the outer closure. -/
  | savedUser
  /-- `SavedViewController.loadSavedPosts`, the inner closure. -/
  | savedPost
  /-- `UserProfileViewController.loadPosts`. -/
  | profilePosts
  /-- `UserProfileViewController.loadInfo`. -/
  | profileInfo
  /-- `UserProfileViewController.editTapped`, the completion of `putData`. -/
  | avatarPut
  /-- `UploadViewController.uploadPressed`, the completion of `getDocument`. -/
  | uploadUser (postUUID opID mediaID titleText descriptionText : String)
  /-- `UploadViewController.uploadPressed`, the completion of `setData`. -/
  | uploadSet
  /-- `UploadViewController.uploadImage`. -/
  | uploadPut
  /-- `CommentsViewController.loadComments`. -/
  | comments
  /-- `CommentsViewController.sendCommentPressed`, the completion of `getDocument`. -/
  | commentUser (commentID opID message : String)
  /-- `CommentsViewController.sendCommentPressed`, the completion of `setData`. -/
  | commentSet
  /-- `loadPendingPosts` or `loadPendingComments`. -/
  | pending
  /-- `callBackOnDenyButton`, the completion of `delete`. -/
  | denied (row : ℕ)
  /-- `SignUpViewController.signUpPressed`, the completion of `createUser`. -/
  | userCreated (nameText : String)
  /-- `SignUpViewController.signUpPressed`, the completion of `setData`. -/
  | userSet
  /-- `LogInViewController.logInPressed`. -/
  | signedIn
  deriving DecidableEq

/-- The asynchronous calls. `updateData` is only ever called without a completion. -/
inductive Request
  | getDocument (c : CollectionName) (id : String) (k : Callback)
  | getDocuments (c : CollectionName) (q : Query) (k : Callback)
  | addSnapshotListener (c : CollectionName) (q : Query) (k : Callback)
  | setData (c : CollectionName) (id : String) (fields : List (String × Value)) (k : Callback)
  | updateData (c : CollectionName) (id : String) (fields : List (String × FieldValue))
  | delete (c : CollectionName) (id : String) (k : Callback)
  | putData (path : String) (data : UIImage) (k : Callback)
  | createUser (email password : String) (k : Callback)
  | signIn (email password : String) (k : Callback)
  deriving DecidableEq

/-- What a closure is called with. -/
inductive Reply
  /-- `(document, error)`: `none` when there is an error or the document does not exist. -/
  | document (d : Option Document)
  /-- `(querySnapshot, err)`. -/
  | documents (r : Except String (List Document))
  /-- `(error)`. -/
  | completion (error : Option String)
  /-- `(result, err)` of Auth: the uid of `result!.user`. -/
  | auth (r : Except String String)

/-- The closure a request is made with. -/
def Request.callback : Request → Option Callback
  | .getDocument _ _ k | .getDocuments _ _ k | .addSnapshotListener _ _ k | .setData _ _ _ k
  | .delete _ _ k | .putData _ _ k | .createUser _ _ k | .signIn _ _ k => some k
  | .updateData _ _ _ => none

/-! ## Handlers -/

/-- The screens a segue leads to, with what `prepare(for:)` hands over. -/
inductive Destination
  | signUp
  | logIn
  | upload
  | userProfile
  | otherProfile (otherUserID otherUserName : String)
  | saved
  | comments (postID opName : String)
  | moderation
  | moderationPosts
  | moderationComments
  deriving DecidableEq

/-- What a handler does besides changing its controller. -/
inductive Effect
  | request (r : Request)
  | createAlert (title message : String)
  /-- A segue to a new screen. -/
  | segue (d : Destination)
  /-- Back to the screen below in the navigation stack. -/
  | pop
  /-- `goToHome()`. -/
  | goToHome
  /-- `Auth.auth().signOut()`, when it succeeds. -/
  | signOut
  /-- Instantiate and present `initialNavigationController`. -/
  | presentInitial
  deriving DecidableEq

/-- What a handler reads from outside its controller. -/
structure Env where
  /-- `Auth.auth().currentUser`. -/
  currentUser : Option String := none
  /-- `UUID().uuidString`. -/
  uuid : String := ""
  /-- `Timestamp(date: Date())`. -/
  date : ℕ := 0
  /-- Whether `jpegData(compressionQuality:)` returns data. -/
  jpegData : Bool := true
  /-- The error `Auth.auth().signOut()` throws, if it does. -/
  signOutError : Option String := none
  deriving DecidableEq

/-- `Auth.auth().currentUser!.uid`. -/
def Env.uid (env : Env) : Except Fault String :=
  match env.currentUser with
  | some uid => .ok uid
  | none => .error .nilUser

@[simp] theorem Env.uid_eq_ok {env : Env} {u : String} :
    env.uid = .ok u ↔ env.currentUser = some u := by
  unfold Env.uid
  split <;> simp [*]

@[simp] theorem Env.uid_eq_error {env : Env} {f : Fault} :
    env.uid = .error f ↔ env.currentUser = none ∧ f = .nilUser := by
  unfold Env.uid
  split <;> simp [*, eq_comm]

/-- What a handler of a controller `σ` leaves: the controller and its effects, in order. -/
abbrev After (σ : Type) := σ × List Effect

/-! ## Texts -/

namespace Constants

def allFieldsEmptyError : String := "Please fill in at least one field."
def noCategoryError : String := "Please select at least one category."
def emptyCommentError : String := "Cannot post an empty comment."
def postingCommentError : String := "Comment could not be posted."
def unknownUserError : String := "User information could not be found."
def postNotFoundError : String := "[post not found]"
def noPostsHereError : String := "There are no posts here. Try somewhere else! :("

end Constants

end ArtsExplorer
