import ArtsExplorer.App.CallSites

/-!
# What a reply makes of a screen

The closures of a screen take a reply apart, each in its own way. What is left of the screen is said
once, reply by reply (`Learns`), and the facts about single parts of it follow from that.
-/

namespace ArtsExplorer

open Foundations

namespace Screen

variable {env : Env} {scr scr' : Screen} {es : List Effect}

/-- What the closures of a screen make of it. -/
inductive Learns : Screen → Callback → Reply → Screen → Prop
  /-- A failure is shown in an alert, and so are some successes. -/
  | unchanged {scr k r} : Learns scr k r scr
  /-- A closure of a table's cell. -/
  | cell {scr k r} {l l' : PostListing} (hl : scr.listing = some l) (h : l.Follows l') :
      Learns scr k r (scr.setListing l')
  | homePosts {s : HomeViewController} {l ds} (h : s.listing.removeAll.showAll ds = .ok l) :
      Learns (.home s) .homePosts (.documents (.ok ds)) (.home { s with listing := l })
  | menu {s : HomeViewController} {d m es}
      (h : s.leftMenu.viewDidLoadReply (some d) = .ok (m, es)) :
      Learns (.home s) .menu (.document (some d)) (.home { s with leftMenu := m })
  | otherInfo {s s' : OtherProfileViewController} {d} (hl : s'.listing = s.listing)
      (hid : s'.otherUserID = s.otherUserID) (hname : s'.otherUserName = s.otherUserName) :
      Learns (.otherProfile s) .otherInfo (.document (some d)) (.otherProfile s')
  | otherPosts {s : OtherProfileViewController} {l ds} (h : s.listing.showAll ds = .ok l) :
      Learns (.otherProfile s) .otherPosts (.documents (.ok ds))
        (.otherProfile { s with listing := l })
  | savedUser {s : SavedViewController} {d savedPosts}
      (h : d "savedPosts" = some (.array savedPosts)) :
      Learns (.saved s) .savedUser (.document (some d))
        (.saved { s with savedPosts := savedPosts, listing := s.listing.removeAll })
  | savedPost {s : SavedViewController} {l d} (h : s.listing.showAll [d] = .ok l) :
      Learns (.saved s) .savedPost (.document (some d)) (.saved { s with listing := l })
  | profilePosts {s : UserProfileViewController} {l ds} (h : s.listing.showAll ds = .ok l) :
      Learns (.userProfile s) .profilePosts (.documents (.ok ds))
        (.userProfile { s with listing := l })
  | profileInfo {s s' : UserProfileViewController} {d} (hl : s'.listing = s.listing) :
      Learns (.userProfile s) .profileInfo (.document (some d)) (.userProfile s')
  | uploadSet {s : UploadViewController} :
      Learns (.upload s) .uploadSet (.completion none) (.upload s.clearFieldsAndInfo)
  | comments {s : CommentsViewController} {ds comments l}
      (hdec : decodeAll (Comment.ofDocument true) ds = .ok comments)
      (h : s.commentsToShow.removeAll.appendAll comments = .ok l) :
      Learns (.comments s) .comments (.documents (.ok ds))
        (.comments { s with commentsToShow := l })
  | commentUser {s : CommentsViewController} {commentID opID message d} :
      Learns (.comments s) (.commentUser commentID opID message) (.document (some d))
        (.comments { s with commentTextField := "" })
  | pendingPosts {s l : PendingList AEPost} {ds posts}
      (hdec : decodeAll AEPost.ofDocument ds = .ok posts)
      (h : s.removeAll.appendAll posts = .ok l) :
      Learns (.moderationPosts s) .pending (.documents (.ok ds)) (.moderationPosts l)
  | pendingComments {s l : PendingList Comment} {ds comments}
      (hdec : decodeAll (Comment.ofDocument false) ds = .ok comments)
      (h : s.removeAll.appendAll comments = .ok l) :
      Learns (.moderationComments s) .pending (.documents (.ok ds)) (.moderationComments l)
  | deniedPost {s l : PendingList AEPost} {row} (h : s.removeAt row = .ok l) :
      Learns (.moderationPosts s) (.denied row) (.completion none) (.moderationPosts l)
  | deniedComment {s l : PendingList Comment} {row} (h : s.removeAt row = .ok l) :
      Learns (.moderationComments s) (.denied row) (.completion none) (.moderationComments l)
  /-- The label of an entry screen shows an error. -/
  | signUp {s : SignUpViewController} {k r} (message : String) :
      Learns (.signUp s) k r (.signUp (s.showError message))
  | logIn {s : LogInViewController} {k r} (message : String) :
      Learns (.logIn s) k r (.logIn (s.showError message))

/-! ## The closures -/

theorem homePostsReply_learns {s s' : HomeViewController} {r : Except String (List Document)}
    (h : s.loadPostsReply r = .ok (s', es)) :
    (Screen.home s).Learns .homePosts (.documents r) (.home s') := by
  cases r with
  | error err =>
    cases h
    exact .unchanged
  | ok ds =>
    simp only [HomeViewController.loadPostsReply, bind_eq_ok, pure_eq_ok, Prod.mk.injEq] at h
    obtain ⟨l, hl, rfl, -⟩ := h
    exact .homePosts hl

theorem otherInfoReply_learns {s s' : OtherProfileViewController} {d : Option Document}
    (h : s.loadInfoReply d = .ok (s', es)) :
    (Screen.otherProfile s).Learns .otherInfo (.document d) (.otherProfile s') := by
  cases d with
  | none =>
    cases h
    exact .unchanged
  | some d =>
    simp only [OtherProfileViewController.loadInfoReply, bind_eq_ok, pure_eq_ok,
      Prod.mk.injEq] at h
    obtain ⟨_, -, _, -, _, -, rfl, -⟩ := h
    exact .otherInfo rfl rfl rfl

theorem otherPostsReply_learns {s s' : OtherProfileViewController}
    {r : Except String (List Document)} (h : s.loadPostsReply r = .ok (s', es)) :
    (Screen.otherProfile s).Learns .otherPosts (.documents r) (.otherProfile s') := by
  cases r with
  | error err =>
    cases h
    exact .unchanged
  | ok ds =>
    simp only [OtherProfileViewController.loadPostsReply, bind_eq_ok, pure_eq_ok,
      Prod.mk.injEq] at h
    obtain ⟨l, hl, rfl, -⟩ := h
    exact .otherPosts hl

theorem savedUserReply_learns {s s' : SavedViewController} {d : Option Document}
    (h : s.savedUserReply d = .ok (s', es)) :
    (Screen.saved s).Learns .savedUser (.document d) (.saved s') := by
  cases d with
  | none =>
    cases h
    exact .unchanged
  | some d =>
    simp only [SavedViewController.savedUserReply, bind_eq_ok, getArray_eq_ok, pure_eq_ok,
      Prod.mk.injEq] at h
    obtain ⟨savedPosts, hd, rfl, -⟩ := h
    exact .savedUser hd

theorem savedPostReply_learns {s s' : SavedViewController} {d : Option Document}
    (h : s.savedPostReply d = .ok (s', es)) :
    (Screen.saved s).Learns .savedPost (.document d) (.saved s') := by
  cases d with
  | none =>
    cases h
    exact .unchanged
  | some d =>
    simp only [SavedViewController.savedPostReply, bind_eq_ok, pure_eq_ok, Prod.mk.injEq] at h
    obtain ⟨l, hl, rfl, -⟩ := h
    exact .savedPost hl

theorem profilePostsReply_learns {s s' : UserProfileViewController}
    {r : Except String (List Document)} (h : s.loadPostsReply r = .ok (s', es)) :
    (Screen.userProfile s).Learns .profilePosts (.documents r) (.userProfile s') := by
  cases r with
  | error err =>
    cases h
    exact .unchanged
  | ok ds =>
    simp only [UserProfileViewController.loadPostsReply, bind_eq_ok, pure_eq_ok,
      Prod.mk.injEq] at h
    obtain ⟨l, hl, rfl, -⟩ := h
    exact .profilePosts hl

theorem profileInfoReply_learns {s s' : UserProfileViewController} {d : Option Document}
    (h : s.loadInfoReply d = .ok (s', es)) :
    (Screen.userProfile s).Learns .profileInfo (.document d) (.userProfile s') := by
  cases d with
  | none =>
    cases h
    exact .unchanged
  | some d =>
    simp only [UserProfileViewController.loadInfoReply, bind_eq_ok, pure_eq_ok,
      Prod.mk.injEq] at h
    obtain ⟨_, -, _, -, _, -, rfl, -⟩ := h
    exact .profileInfo rfl

theorem commentsReply_learns {s s' : CommentsViewController} {r : Except String (List Document)}
    (h : s.loadCommentsReply r = .ok (s', es)) :
    (Screen.comments s).Learns .comments (.documents r) (.comments s') := by
  cases r with
  | error err =>
    cases h
    exact .unchanged
  | ok ds =>
    simp only [CommentsViewController.loadCommentsReply, bind_eq_ok, trapping_eq_ok, pure_eq_ok,
      Prod.mk.injEq] at h
    obtain ⟨comments, hdec, l, hl, rfl, -⟩ := h
    exact .comments hdec hl

/-- The load of a moderation screen shows the answer, or nothing has changed. -/
theorem pendingReply_cases {α : Type} {m : Queue α} {s s' : PendingList α}
    {r : Except String (List Document)} (h : m.loadPendingReply s r = .ok (s', es)) :
    s' = s ∨ ∃ ds items, r = .ok ds ∧ decodeAll m.ofDocument ds = .ok items ∧
      s.removeAll.appendAll items = .ok s' := by
  cases r with
  | error err =>
    cases h
    exact .inl rfl
  | ok ds =>
    simp only [Queue.loadPendingReply, bind_eq_ok, trapping_eq_ok, pure_eq_ok, Prod.mk.injEq] at h
    obtain ⟨items, hdec, l, hl, rfl, -⟩ := h
    exact .inr ⟨ds, items, rfl, hdec, hl⟩

/-- The completion of a denial removes the row, or nothing has changed. -/
theorem deniedReply_cases {α : Type} {m : Queue α} {s s' : PendingList α} {row : ℕ}
    {e : Option String} (h : m.denyReply s row e = .ok (s', es)) :
    s' = s ∨ e = none ∧ s.removeAt row = .ok s' := by
  cases e with
  | some err =>
    cases h
    exact .inl rfl
  | none =>
    simp only [Queue.denyReply, bind_eq_ok, trapping_eq_ok, pure_eq_ok, Prod.mk.injEq] at h
    obtain ⟨l, hl, rfl, -⟩ := h
    exact .inr ⟨rfl, hl⟩

/-- **What a reply makes of a screen**, where the closure goes through. -/
theorem receive_learns {k : Callback} {r : Reply}
    (h : scr.receive env k r = some (.ok (scr', es))) : scr.Learns k r scr' := by
  replace h := receive_cases h
  cases h
  case table h =>
    obtain ⟨l, l', hl, hr, rfl⟩ := tableReceive_ok h
    exact .cell hl (PostListing.receive_spec hr).1
  all_goals
    rename_i h
    simp only [lift_eq_ok, Except.ok.injEq, Prod.mk.injEq] at h
    obtain ⟨⟨s', es'⟩, hx, rfl, -⟩ := h
  case homePosts => exact homePostsReply_learns hx
  case menu d =>
    cases d with
    | none =>
      cases hx
      exact .unchanged
    | some d => exact .menu hx
  case otherInfo => exact otherInfoReply_learns hx
  case otherPosts => exact otherPostsReply_learns hx
  case savedUser => exact savedUserReply_learns hx
  case savedPost => exact savedPostReply_learns hx
  case profilePosts => exact profilePostsReply_learns hx
  case profileInfo => exact profileInfoReply_learns hx
  case uploadUser _ _ _ _ _ d =>
    unfold UploadViewController.userReply at hx
    split at hx
    · simp only [bind_eq_ok, pure_eq_ok, Prod.mk.injEq] at hx
      obtain ⟨_, -, rfl, -⟩ := hx
      exact .unchanged
    · cases hx
      exact .unchanged
  case uploadSet e =>
    cases e <;> cases hx
    · exact .uploadSet
    · exact .unchanged
  case comments => exact commentsReply_learns hx
  case commentUser _ _ _ d =>
    unfold CommentsViewController.userReply at hx
    split at hx
    · simp only [bind_eq_ok, pure_eq_ok, Prod.mk.injEq] at hx
      obtain ⟨_, -, rfl, -⟩ := hx
      exact .commentUser
    · cases hx
      exact .unchanged
  case pendingPosts =>
    rcases pendingReply_cases hx with rfl | ⟨ds, posts, rfl, hdec, hl⟩
    · exact .unchanged
    · exact .pendingPosts hdec hl
  case deniedPost =>
    rcases deniedReply_cases hx with rfl | ⟨rfl, hl⟩
    · exact .unchanged
    · exact .deniedPost hl
  case pendingComments =>
    rcases pendingReply_cases hx with rfl | ⟨ds, comments, rfl, hdec, hl⟩
    · exact .unchanged
    · exact .pendingComments hdec hl
  case deniedComment =>
    rcases deniedReply_cases hx with rfl | ⟨rfl, hl⟩
    · exact .unchanged
    · exact .deniedComment hl
  case userCreated r =>
    cases r <;> cases hx
    · exact .signUp _
    · exact .unchanged
  case userSet e =>
    cases e <;> cases hx
    · exact .unchanged
    · exact .signUp _
  case signedIn r =>
    cases r <;> cases hx
    · exact .logIn _
    · exact .unchanged
  -- the completions that are left only tell the outcome
  case avatarPut e | uploadPut e | commentSet e => cases e <;> cases hx <;> exact .unchanged

end Screen

end ArtsExplorer
