import ArtsExplorer.System.Creation

/-!
# What calls, answers and screens are based on

The provenance of everything a device holds, stated over the history of the system so that it holds
for ever once it does (`Extends`):

* `Calls`: a call in flight was made at one of the call sites of the app, and what the app knew
  there is a fact about the history;
* `AnswerOK`: the documents of an answer are recorded: they were created by a write that was served,
  changed in nothing but `approved`, and `approved` only by an approval that was served;
* `ScreenOK`: what a screen shows was read from an answer to one of its own calls.

`sync` says that every screen is used by the user it was loaded for (`Nav`); the facts about *whose*
posts a screen shows depend on it.
-/

namespace ArtsExplorer

open Foundations

namespace System

variable {ι : Type} (s : System ι) (sync : Prop)

/-! ## Decisions -/

/-- The approval of document `id` was served. -/
def Approved (n : CollectionName) (id : String) : Prop :=
  ∃ f ∈ s.net, f.request = approveRequest n id ∧ f.reply = some (.completion none)

/-- A denial of document `id` was served. -/
def Denied (n : CollectionName) (id : String) : Prop :=
  ∃ f ∈ s.net, ∃ row, f.request = .delete n id (.denied row) ∧ f.reply = some (.completion none)

/-! ## Documents -/

/-- Document `id` was created at some time. -/
def Known (n : CollectionName) (id : String) : Prop := ∃ fields, s.Created n id fields

/-- `d` was stored as document `id` at some time: it is the document that was created, but for an
approval. -/
structure Recorded (n : CollectionName) (id : String) (d : Document) : Prop where
  created : ∃ fields, s.Created n id fields ∧ ∀ key, key ≠ "approved" → d key = fields.lookup key
  approved : (d "approved" = some (.bool true) ∧ s.Approved n id) ∨
    d "approved" = some (.bool false)

/-- Post `id` is approved or by `u`. -/
def Fit (u id : String) : Prop :=
  s.Approved .posts id ∨ ∃ fields, s.Created .posts id fields ∧
    fields.lookup "opID" = some (.string u)

/-- What `d` says is approved or by `u`. -/
def FitsDocument (u : String) (d : Document) : Prop :=
  d "approved" = some (.bool true) ∨ d "opID" = some (.string u)

/-- The saved posts of `u` exist or existed, and are fit for `u`. -/
def SavedOK (u : String) (d : Document) : Prop :=
  ∀ id ∈ Value.elements (d "savedPosts"), s.Known .posts id ∧ (sync → s.Fit u id)

/-- What holds of a document as it is or was stored. -/
def DocumentOK : CollectionName → String → Document → Prop
  | .users, id, d => s.SavedOK sync id d
  | n, id, d => s.Recorded n id d

/-! ## Moderators -/

/-- The menu of home screen `h` was loaded in a session of a moderator. -/
def ModMenu (c : ι) (h : ℕ) : Prop :=
  ∃ nd, s.At c h nd ∧ nd.screen.kind = .home ∧
    ∃ f ∈ s.net, ∃ u d, f.client = c ∧ f.node = h ∧ f.user = some u ∧
      f.request = .getDocument .users u .menu ∧ f.reply = some (.document (some d)) ∧
      f.delivered = true ∧ d "mod" = some (.bool true)

/-- Screen `m` is the moderation menu opened from such a home screen. -/
def ModScreen (c : ι) (m : ℕ) : Prop :=
  ∃ nd h, s.At c m nd ∧ nd.screen.kind = .moderation ∧ nd.opener = some h ∧ s.ModMenu c h

/-- Screen `k` is the moderation screen of collection `n` opened from such a moderation menu. -/
def Moderates (c : ι) (k : ℕ) (n : CollectionName) : Prop :=
  ∃ nd m, s.At c k nd ∧ Moderated n nd.screen.kind ∧ nd.opener = some m ∧ s.ModScreen c m

/-- An answer to a call of screen `k` had `d` in it. -/
def ReadBy (c : ι) (k : ℕ) (d : Document) : Prop :=
  ∃ f ∈ s.net, f.client = c ∧ f.node = k ∧ f.delivered = true ∧
    (f.reply = some (.document (some d)) ∨ ∃ ds, f.reply = some (.documents (.ok ds)) ∧ d ∈ ds)

/-- Moderation screen `k` has read document `id` while it was pending. -/
def ReadPending (c : ι) (k : ℕ) (n : CollectionName) (id : String) : Prop :=
  ∃ d, s.ReadBy c k d ∧ s.Recorded n id d ∧ d "approved" = some (.bool false)

/-! ## Sign-ups -/

/-- Screen `k` has been told that account `uid` was created for `nameText`. -/
def ToldCreated (c : ι) (k : ℕ) (nameText uid : String) : Prop :=
  ∃ f ∈ s.net, f.client = c ∧ f.node = k ∧
    (∃ email password, f.request = .createUser email password (.userCreated nameText)) ∧
    f.reply = some (.auth (.ok uid)) ∧ f.delivered = true

/-! ## Calls -/

/-- The call sites of the app, with what the app knows there. The call is made by screen `k` of `c`
with `user` signed in. -/
inductive Calls (c : ι) (k : ℕ) (user : Option String) : Request → Prop
  | cellAvatar (opID : String) (j : ℕ) :
      Calls c k user (.getDocument .users opID (.cellAvatar j))
  | cellSavedPosts (u : String) (j : ℕ) :
      Calls c k user (.getDocument .users u (.cellSavedPosts j))
  | otherInfo (u : String) : Calls c k user (.getDocument .users u .otherInfo)
  | profileInfo (u : String) : Calls c k user (.getDocument .users u .profileInfo)
  | homePosts (q : Query) (hq : .isEqualTo "approved" (.bool true) ∈ q.filters) :
      Calls c k user (.getDocuments .posts q .homePosts)
  | otherPosts (o : String) :
      Calls c k user
        (.getDocuments .posts (OtherProfileViewController.approvedPostsBy o) .otherPosts)
  | profilePosts (nd : Node) (o : String) (hn : s.At c k nd) (ho : nd.user = some o) :
      Calls c k user (.getDocuments .posts (UserProfileViewController.postsBy o) .profilePosts)
  | menu (u : String) (hu : user = some u) : Calls c k user (.getDocument .users u .menu)
  | savedUser (nd : Node) (u : String) (hn : s.At c k nd) (hu : sync → nd.user = some u) :
      Calls c k user (.getDocument .users u .savedUser)
  | savedPost (nd : Node) (id : String) (hn : s.At c k nd) (hid : s.Known .posts id)
      (hu : sync → ∀ u, nd.user = some u → s.Fit u id) :
      Calls c k user (.getDocument .posts id .savedPost)
  | comments (postID : String) :
      Calls c k user
        (.addSnapshotListener .comments (CommentsViewController.approvedComments postID) .comments)
  | pending (nd : Node) (n : CollectionName) (limit : ℕ) (hn : s.At c k nd)
      (hm : Moderated n nd.screen.kind) :
      Calls c k user (.getDocuments n (pendingQuery limit) .pending)
  | avatarPut (path : String) (image : UIImage) : Calls c k user (.putData path image .avatarPut)
  | uploadPut (path : String) (image : UIImage) : Calls c k user (.putData path image .uploadPut)
  | edit (nd : Node) (o : String) (ups : List (String × FieldValue))
      (hups : ∀ key ∈ ups.map Prod.fst, key = "bio" ∨ key = "name" ∨ key = "avatarID")
      (hn : s.At c k nd) (ho : nd.user = some o) (hu : sync → user = some o) :
      Calls c k user (.updateData .users o ups)
  | save (u id : String) (v : FieldValue) (hu : user = some u) (hid : s.Known .posts id)
      (hf : sync → s.Fit u id) (hv : v = .arrayUnion [id] ∨ v = .arrayRemove [id]) :
      Calls c k user (.updateData .users u [("savedPosts", v)])
  | uploadUser (postUUID opID mediaID titleText descriptionText : String) (hu : user = some opID) :
      Calls c k user (.getDocument .users opID
        (.uploadUser postUUID opID mediaID titleText descriptionText))
  | uploadSet (postUUID opID mediaID titleText descriptionText opName : String)
      (chosenCategories : List String) (date : ℕ)
      (hpress : ∃ f ∈ s.net, f.client = c ∧ f.node = k ∧ f.user = some opID ∧
        f.request = .getDocument .users opID
          (.uploadUser postUUID opID mediaID titleText descriptionText)) :
      Calls c k user (.setData .posts postUUID (postDocument postUUID opID opName chosenCategories
        mediaID titleText descriptionText date) .uploadSet)
  | commentUser (commentID opID message : String) (hu : user = some opID) :
      Calls c k user (.getDocument .users opID (.commentUser commentID opID message))
  | commentSet (commentID opID message opName postID : String) (date : ℕ)
      (hpost : s.Known .posts postID)
      (hpress : ∃ f ∈ s.net, f.client = c ∧ f.node = k ∧ f.user = some opID ∧
        f.request = .getDocument .users opID (.commentUser commentID opID message)) :
      Calls c k user (.setData .comments commentID
        (commentDocument commentID message opName opID postID date) .commentSet)
  | approve (n : CollectionName) (id : String) (hm : s.Moderates c k n)
      (hid : s.ReadPending c k n id) : Calls c k user (approveRequest n id)
  | deny (n : CollectionName) (id : String) (row : ℕ) (hm : s.Moderates c k n)
      (hid : s.ReadPending c k n id) : Calls c k user (.delete n id (.denied row))
  | createUser (nd : Node) (email password nameText : String) (hn : s.At c k nd)
      (hk : nd.screen.kind = .signUp) :
      Calls c k user (.createUser email password (.userCreated nameText))
  | userSet (uid nameText : String) (hu : user = some uid)
    (htold : s.ToldCreated c k nameText uid) :
      Calls c k user (.setData .users uid (userDocument uid nameText) .userSet)
  | signIn (email password : String) : Calls c k user (.signIn email password .signedIn)

/-! ## Answers -/

/-- What holds of the documents in an answer to a call of screen `k`. -/
def AnswerOK (c : ι) (k : ℕ) : Request → Reply → Prop
  | .getDocument n id _, .document (some d) =>
    s.DocumentOK sync n id d ∧
      (n = .posts → ∃ nd, s.At c k nd ∧ (sync → ∀ u, nd.user = some u → FitsDocument u d))
  | .getDocuments n q _, .documents (.ok ds) | .addSnapshotListener n q _, .documents (.ok ds) =>
    ∀ d ∈ ds, ∃ id, s.DocumentOK sync n id d ∧ ∀ flt ∈ q.filters, flt.Matches d
  | _, _ => True

/-! ## Screens -/

/-- What holds of a list of posts on screen `k` of `c`, loaded for `user`; `ok` is what the loader
asked of the documents. -/
structure ListOK (c : ι) (k : ℕ) (user : Option String) (ok : Document → Prop) (l : PostListing) :
    Prop where
  posts : ∀ post ∈ l.postsToShow.items, ∃ d, s.ReadBy c k d ∧ AEPost.ofDocument d = .ok post ∧
    s.Recorded .posts post.id d ∧ ok d
  shows : ∀ id, l.Shows id → s.Known .posts id ∧ (sync → ∀ u, user = some u → s.Fit u id)

/-- A comment that screen `k` shows. -/
def CommentOK (c : ι) (k : ℕ) (comment : Comment) : Prop :=
  ∃ d, s.ReadBy c k d ∧ Comment.ofDocument true d = .ok comment ∧
    s.Recorded .comments comment.commentID d ∧ d "approved" = some (.bool true)

/-- What holds of screen `k` of device `c`. -/
def ScreenOK (c : ι) (k : ℕ) (n : Node) : Prop :=
  match n.screen with
  | .home h =>
    s.ListOK sync c k n.user (fun d => d "approved" = some (.bool true)) h.listing ∧
      ∀ item ∈ h.leftMenu.menuListItems, lowercased item = "moderation" → s.ModMenu c k
  | .otherProfile p =>
    s.ListOK sync c k n.user (fun d => d "approved" = some (.bool true)) p.listing
  | .saved v =>
    s.ListOK sync c k n.user (fun d => sync → ∀ u, n.user = some u → FitsDocument u d) v.listing
  | .userProfile p =>
    n.user = some p.listing.opID ∧
      s.ListOK sync c k n.user (fun d => d "opID" = some (.string p.listing.opID)) p.listing
  | .comments v => s.Known .posts v.postID ∧ ∀ x ∈ v.commentsToShow.items, s.CommentOK c k x
  | .moderation => ∃ h, n.opener = some h ∧ s.ModMenu c h
  | .moderationPosts l =>
    (∃ m, n.opener = some m ∧ s.ModScreen c m) ∧ ∀ x ∈ l.items, s.ReadPending c k .posts x.id
  | .moderationComments l =>
    (∃ m, n.opener = some m ∧ s.ModScreen c m) ∧
      ∀ x ∈ l.items, s.ReadPending c k .comments x.commentID
  | _ => True

/-! ## The invariant -/

/-- Everything a device holds, and every stored document, is based on the history of the system. -/
structure Inv : Prop where
  calls : ∀ f ∈ s.net, s.Calls sync f.client f.node f.user f.request
  answers : ∀ f ∈ s.net, ∀ r, f.reply = some r → s.AnswerOK sync f.client f.node f.request r
  screens : ∀ (c : ι) (k : ℕ) (n : Node), s.At c k n → s.ScreenOK sync c k n
  stored : ∀ n id d, (s.store n).lookup id = some d → s.DocumentOK sync n id d
  approved : ∀ n id d, (s.store n).lookup id = some d → s.Approved n id →
    d "approved" = some (.bool true)
  kept : ∀ n id, s.Known n id → (s.store n).lookup id ≠ none ∨ s.Denied n id

end System

end ArtsExplorer
