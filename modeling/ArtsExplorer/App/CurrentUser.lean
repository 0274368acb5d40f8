import ArtsExplorer.App.CallSites

/-!
# Where the signed-in user is unwrapped

`Auth.auth().currentUser!` is evaluated in handlers of the user's actions on the screens behind the
tab bar, when such a screen is loaded, and in two places that no user action leads to:
`prepareForReuse()` of a cell that is dequeued, and the closure of `configure(with:)`.
`act_nilUser`, `load_error` and `receive_nilUser_iff` say that there are no others.
-/

namespace ArtsExplorer

open Foundations

/-- A force cast that fails is no unwrapped user. -/
theorem Casts.ne_nilUser {α : Type} {x : Except Fault α} (h : Casts x) : x ≠ .error .nilUser := by
  intro hx
  obtain ⟨k, hk⟩ := h _ hx
  cases hk

@[simp] theorem getString_ne_nilUser (d : Document) (k : String) :
    getString d k ≠ .error .nilUser :=
  (casts_getString d k).ne_nilUser

@[simp] theorem getBool_ne_nilUser (d : Document) (k : String) : getBool d k ≠ .error .nilUser :=
  (casts_getBool d k).ne_nilUser

@[simp] theorem getArray_ne_nilUser (d : Document) (k : String) : getArray d k ≠ .error .nilUser :=
  (casts_getArray d k).ne_nilUser

theorem decodeAll_ne_nilUser {α : Type} {decode : Document → Except Fault α}
    (h : ∀ d, Casts (decode d)) (ds : List Document) : decodeAll decode ds ≠ .error .nilUser := by
  intro hds
  obtain ⟨d, -, hd⟩ := decodeAll_error hds
  exact (h d).ne_nilUser hd

namespace PostListing

variable {env : Env} {l : PostListing}

theorem prepareInfo_ne_nilUser (row : ℕ) : l.prepareInfo row ≠ .error .nilUser := by
  simp only [prepareInfo, ne_eq, bind_eq_error, trapping_eq_error, reduceCtorEq, and_false,
    exists_false,
    pure_ne_error, or_self, not_false_eq_true]

theorem showAll_ne_nilUser (ds : List Document) : l.showAll ds ≠ .error .nilUser := by
  simp only [showAll, ne_eq, bind_eq_error, decodeAll_ne_nilUser AEPost.casts_ofDocument,
    trapping_eq_error, reduceCtorEq, and_false, exists_false, pure_ne_error, or_self,
    not_false_eq_true]

/-- The table unwraps the user when a cell is reused and when its save button is pressed. -/
theorem act_nilUser {a : TableAction} (h : l.act env a = some (.error .nilUser)) :
    env.currentUser = none ∧ (a.byUser = true ∨ ∃ row k, a = .cellForRowAt row (some k)) := by
  cases a with
  | cellForRowAt row reuse =>
    simp only [act] at h
    split_ifs at h
    cases reuse with
    | none =>
      simp only [cellForRowAt, dequeue, Option.some.injEq, bind_eq_error, trapping_eq_error,
        reduceCtorEq, and_false, exists_false, pure_ne_error, or_self] at h
    | some k =>
      simp only [cellForRowAt, dequeue, PostTableViewCell.prepareForReuse, Option.some.injEq,
        bind_eq_error, Env.uid_eq_error, trapping_eq_error, reduceCtorEq, and_false, exists_false,
        pure_ne_error, or_false, and_true] at h
      exact ⟨h, .inr ⟨row, k, rfl⟩⟩
  | didEndDisplaying k =>
    simp only [act, Option.map_eq_some_iff, reduceCtorEq, and_false, exists_false] at h
  | imageLoaded k ofPost found =>
    simp only [act, Option.map_eq_some_iff, reduceCtorEq, and_false, exists_false] at h
  | pressedSaveButton k =>
    simp only [act] at h
    split at h
    · split_ifs at h
      simp only [PostTableViewCell.pressedSaveButton, Option.some.injEq, bind_eq_error,
        Env.uid_eq_error, and_true] at h
      refine ⟨?_, .inl rfl⟩
      rcases h with (h | ⟨u, hu, h⟩) | ⟨x, -, h⟩
      · exact h
      · split_ifs at h <;> cases h
      · cases h
    · cases h
  | pressedViewComments k =>
    simp only [act] at h
    split at h
    · split_ifs at h
      split at h
      · next row _ =>
        simp only [callBackOnCommentButton, Option.some.injEq, bind_eq_error,
          prepareInfo_ne_nilUser,
          pure_ne_error, and_false, exists_false, or_self] at h
      · cases h
    · cases h

/-- Of the answers to cells, the closure of `configure(with:)` unwraps the user, once it has read
the avatar. -/
theorem receive_nilUser_iff {k : Callback} {r : Reply} :
    l.receive env k r = some (.error .nilUser) ↔
      env.currentUser = none ∧ ∃ j d avatarID cell, k = .cellAvatar j ∧ r = .document (some d) ∧
        d "avatarID" = some (.string avatarID) ∧ l.cells[j]? = some cell := by
  constructor
  · intro h
    unfold receive at h
    split at h
    · next j document =>
      simp only [Option.map_eq_some_iff, bind_eq_error, pure_ne_error, and_false, exists_false,
        or_false] at h
      obtain ⟨cell, hcell, h⟩ := h
      cases document with
      | none => cases h
      | some d =>
        simp only [PostTableViewCell.configureReply, bind_eq_error, getString_ne_nilUser,
          getString_eq_ok, Env.uid_eq_error, pure_ne_error, and_false, exists_false, or_false,
          false_or,
          and_true] at h
        obtain ⟨avatarID, hd, hu⟩ := h
        exact ⟨hu, j, d, avatarID, cell, rfl, rfl, hd, hcell⟩
    · next j document =>
      simp only [Option.map_eq_some_iff, bind_eq_error, pure_ne_error, and_false, exists_false,
        or_false] at h
      obtain ⟨cell, -, h⟩ := h
      cases document with
      | none => cases h
      | some d =>
        simp only [PostTableViewCell.fillSaveButtonsReply, bind_eq_error,
          getArray_ne_nilUser, pure_ne_error, and_false, exists_false, or_self] at h
    · cases h
  · rintro ⟨hu, j, d, avatarID, cell, rfl, rfl, hd, hcell⟩
    have huid : env.uid = .error .nilUser := Env.uid_eq_error.2 ⟨hu, rfl⟩
    simp only [receive, hcell, Option.map_some, PostTableViewCell.configureReply,
      getString_eq_ok.2 hd, huid]
    rfl

end PostListing

namespace Screen

variable {env : Env} {scr : Screen}

theorem validateFields_ne_nilUser (s : SignUpViewController) :
    s.validateFields ≠ .error .nilUser := by
  intro h
  have hschool : ∀ input f, SignUpViewController.validateSchoolEmail input = .error f →
      f = .trap .indexOutOfRange := by
    intro input f hf
    unfold SignUpViewController.validateSchoolEmail at hf
    split_ifs at hf
    split at hf <;> cases hf
    rfl
  simp only [SignUpViewController.validateFields] at h
  split_ifs at h
  simp only [SignUpViewController.validateEmail, bind_eq_error, pure_ne_error, and_false,
    exists_false,
    or_false] at h
  rcases h with h | ⟨school, -, h⟩
  · cases hschool _ _ h
  · split_ifs at h <;> cases h

theorem editTapped_ne_nilUser (s : UserProfileViewController) :
    s.editTapped env ≠ .error .nilUser := by
  intro h
  unfold UserProfileViewController.editTapped at h
  split_ifs at h
  · simp only [UserProfileViewController.commit] at h
    split at h
    · cases h
    · split_ifs at h
  · simp only [UserProfileViewController.startEditing] at h
    split at h <;> cases h

theorem callBackOnApproveButton_ne_nilUser {α : Type} (m : Queue α) (l : PendingList α) (row : ℕ) :
    m.callBackOnApproveButton l row ≠ .error .nilUser := by
  simp only [Queue.callBackOnApproveButton, ne_eq, bind_eq_error, trapping_eq_error, reduceCtorEq,
    and_false, exists_false, pure_ne_error, or_self, not_false_eq_true]

theorem callBackOnDenyButton_ne_nilUser {α : Type} (m : Queue α) (l : PendingList α) (row : ℕ) :
    m.callBackOnDenyButton l row ≠ .error .nilUser := by
  simp only [Queue.callBackOnDenyButton, ne_eq, bind_eq_error, trapping_eq_error, reduceCtorEq,
    and_false,
    exists_false, pure_ne_error, or_self, not_false_eq_true]

theorem listing_not_isEntry {l : PostListing} (h : scr.listing = some l) :
    scr.kind.isEntry = false := by
  cases scr <;> first | rfl | cases h

/-- **An action unwraps the user** on a screen behind the tab bar, or when a cell is reused. -/
theorem act_nilUser {a : Action} (h : scr.act env a = some (.error .nilUser)) :
    env.currentUser = none ∧ (a.byUser = true ∧ scr.kind.isEntry = false ∨
      ∃ row k, a = .table (.cellForRowAt row (some k))) := by
  replace h := act_cases h
  cases h
  case table h =>
    simp only [tableAct_eq, Option.bind_eq_some_iff, Option.map_eq_some_iff, lift_eq_error] at h
    obtain ⟨l, hl, x, hx, rfl⟩ := h
    obtain ⟨hu, hby | ⟨row, k, rfl⟩⟩ := PostListing.act_nilUser hx
    · exact ⟨hu, .inl ⟨hby, listing_not_isEntry hl⟩⟩
    · exact ⟨hu, .inr ⟨row, k, rfl⟩⟩
  case didSelectRowAt h =>
    obtain ⟨l, -, -, h⟩ := didSelectRowAt_cases h
    simp only [lift_eq_error, PostListing.didSelectRowAt, bind_eq_error,
      PostListing.prepareInfo_ne_nilUser, pure_ne_error, and_false, exists_false, or_self] at h
  case refresh h =>
    cases refresh_cases h
    case saved h =>
      simp only [lift_eq_error] at h
      cases hload : SavedViewController.loadSavedPosts env with
      | ok es =>
        rw [hload] at h
        cases h
      | error f =>
        rw [hload] at h
        cases h
        simp only [SavedViewController.loadSavedPosts, bind_eq_error, Env.uid_eq_error,
          pure_ne_error,
          and_false, exists_false, or_false, and_true] at hload
        exact ⟨hload, .inl ⟨rfl, rfl⟩⟩
    all_goals
      rename_i h
      cases h
  case signUpPressed h =>
    simp only [lift_eq_error, SignUpViewController.signUpPressed, bind_eq_error,
      validateFields_ne_nilUser, false_or] at h
    obtain ⟨error, -, h⟩ := h
    cases error <;> cases h
  case tappedMenu h =>
    simp only [lift_eq_error, HomeViewController.tappedMenu] at h
    split_ifs at h
    simp only [MenuListController.viewDidLoad, bind_eq_error, Env.uid_eq_error, pure_ne_error,
      and_false,
      exists_false, or_false, and_true] at h
    exact ⟨h, .inl ⟨rfl, rfl⟩⟩
  case uploadPressed h =>
    simp only [lift_eq_error, UploadViewController.uploadPressed] at h
    split at h
    · cases h
    · simp only [bind_eq_error, Env.uid_eq_error, pure_ne_error, and_false, exists_false, or_false,
        and_true] at h
      exact ⟨h, .inl ⟨rfl, rfl⟩⟩
  case sendCommentPressed h =>
    simp only [lift_eq_error, CommentsViewController.sendCommentPressed] at h
    split_ifs at h
    simp only [bind_eq_error, Env.uid_eq_error, pure_ne_error, and_false, exists_false, or_false,
      and_true] at h
    exact ⟨h, .inl ⟨rfl, rfl⟩⟩
  case editTapped h =>
    simp only [lift_eq_error, editTapped_ne_nilUser] at h
  all_goals
    rename_i h
    simp only [lift_eq_error, Option.map_eq_some_iff, reduceCtorEq, and_false,
      exists_false, callBackOnApproveButton_ne_nilUser, callBackOnDenyButton_ne_nilUser] at h

/-- Loading a screen goes through, or unwraps the user on a screen behind the tab bar. -/
theorem load_error {d : Destination} {f : Fault} (h : load env d = .error f) :
    env.currentUser = none ∧ d.kind.isEntry = false := by
  cases d with
  | userProfile =>
    simp only [load, UserProfileViewController.viewDidLoad, lift_eq_error, bind_eq_error,
      Env.uid_eq_error, pure_ne_error, and_false, exists_false, or_false] at h
    exact ⟨h.1, rfl⟩
  | saved =>
    simp only [load, SavedViewController.viewDidLoad, SavedViewController.loadSavedPosts,
      lift_eq_error,
      bind_eq_error, Env.uid_eq_error, pure_ne_error, and_false, exists_false, or_false] at h
    exact ⟨h.1, rfl⟩
  | otherProfile | comments => simp only [load, lift_eq_error, reduceCtorEq] at h
  | _ => cases h

/-- **A closure unwraps the user** in the answer to `configure(with:)` only. -/
theorem receive_nilUser_iff {k : Callback} {r : Reply} :
    scr.receive env k r = some (.error .nilUser) ↔
      env.currentUser = none ∧ ∃ j d avatarID l cell, k = .cellAvatar j ∧ r = .document (some d) ∧
        d "avatarID" = some (.string avatarID) ∧ scr.listing = some l ∧
          l.cells[j]? = some cell := by
  constructor
  · intro h
    have hposts : ∀ ds, decodeAll moderationPost.ofDocument ds ≠ .error .nilUser :=
      decodeAll_ne_nilUser AEPost.casts_ofDocument
    have hcomments : ∀ ds, decodeAll moderationComment.ofDocument ds ≠ .error .nilUser :=
      decodeAll_ne_nilUser (Comment.casts_ofDocument false)
    replace h := receive_cases h
    cases h
    case table h =>
      simp only [tableReceive_eq, Option.bind_eq_some_iff, Option.map_eq_some_iff,
        lift_eq_error] at h
      obtain ⟨l, hl, x, hx, rfl⟩ := h
      obtain ⟨hu, j, d, avatarID, cell, hk, hr, hd, hcell⟩ := PostListing.receive_nilUser_iff.1 hx
      exact ⟨hu, j, d, avatarID, l, cell, hk, hr, hd, hl, hcell⟩
    all_goals
      rename_i h
      simp only [lift_eq_error, reduceCtorEq, HomeViewController.loadPostsReply,
        MenuListController.viewDidLoadReply, OtherProfileViewController.loadInfoReply,
        OtherProfileViewController.loadPostsReply, SavedViewController.savedUserReply,
        SavedViewController.savedPostReply, UserProfileViewController.loadPostsReply,
        UserProfileViewController.loadInfoReply, UploadViewController.userReply,
        CommentsViewController.loadCommentsReply, CommentsViewController.userReply,
        Queue.loadPendingReply, Queue.denyReply] at h
    all_goals
      split at h
      all_goals
        simp only [bind_eq_error, getString_ne_nilUser, getBool_ne_nilUser, getArray_ne_nilUser,
          PostListing.showAll_ne_nilUser, trapping_eq_error,
          decodeAll_ne_nilUser (Comment.casts_ofDocument _), hposts, hcomments, pure_ne_error,
          and_false,
          exists_false, or_self, reduceCtorEq] at h
  · rintro ⟨hu, j, d, avatarID, l, cell, rfl, rfl, hd, hl, hcell⟩
    have hreceive : scr.receive env (.cellAvatar j) (.document (some d)) =
        scr.tableReceive env (.cellAvatar j) (.document (some d)) := by
      cases scr <;> rfl
    rw [hreceive, tableReceive_eq, hl, Option.bind_some,
      PostListing.receive_nilUser_iff.2 ⟨hu, j, d, avatarID, cell, rfl, rfl, hd, hcell⟩]
    rfl

/-- Reusing a cell with nobody signed in. -/
theorem reuse_nilUser {row k : ℕ} {r : Except Fault (After Screen)} (hu : env.currentUser = none)
    (h : scr.act env (.table (.cellForRowAt row (some k))) = some r) : r = .error .nilUser := by
  have huid : env.uid = .error .nilUser := Env.uid_eq_error.2 ⟨hu, rfl⟩
  have hact : scr.act env (.table (.cellForRowAt row (some k))) =
      scr.tableAct env (.cellForRowAt row (some k)) := by
    cases scr <;> rfl
  rw [hact, tableAct_eq, Option.bind_eq_some_iff] at h
  obtain ⟨l, -, h⟩ := h
  simp only [Option.map_eq_some_iff, PostListing.act] at h
  obtain ⟨x, hx, rfl⟩ := h
  split_ifs at hx
  cases hx
  simp only [PostListing.cellForRowAt, PostListing.dequeue, PostTableViewCell.prepareForReuse, huid]
  rfl

end Screen

end ArtsExplorer
