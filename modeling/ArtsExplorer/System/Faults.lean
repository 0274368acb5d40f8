import ArtsExplorer.Content.Schema
import ArtsExplorer.Feeds.Rows
import ArtsExplorer.Sessions.LogOut
import ArtsExplorer.Sessions.Validation
import ArtsExplorer.System.Contract
import ArtsExplorer.System.Start

/-!
# What can end a process

The handlers have force unwraps, force casts, array subscripts and the checks of the table views.
Of these only three can fail in a run of the app (`crash_causes`): the force unwrap of the signed-in
user when nobody is signed in, the force unwrap of the picture of a profile that has none yet, and
the removal of a denied row after other rows of the list have gone. A process that has ended leaves
the screens as they were, so that the cause can be read off the device.
-/

namespace ArtsExplorer

open Foundations

/-! ## Handlers that unwrap a picture -/

/-- A handler that goes on with the result of `x` fails where `x` does. -/
@[simp] theorem map_eq_error {α β : Type} {x : Except Fault α} {g : α → β} {f : Fault} :
    g <$> x = .error f ↔ x = .error f := by
  cases x <;> simp [Functor.map, Except.map]

theorem Casts.ne_nilImage {α : Type} {x : Except Fault α} (h : Casts x) : x ≠ .error .nilImage := by
  intro hx
  obtain ⟨k, hk⟩ := h _ hx
  cases hk

theorem decodeAll_ne_nilImage {α : Type} {decode : Document → Except Fault α}
    (h : ∀ d, Casts (decode d)) (ds : List Document) : decodeAll decode ds ≠ .error .nilImage := by
  intro hds
  obtain ⟨d, -, hd⟩ := decodeAll_error hds
  exact (h d).ne_nilImage hd

namespace PostListing

variable {env : Env} {l : PostListing}

theorem prepareInfo_ne_nilImage (row : ℕ) : l.prepareInfo row ≠ .error .nilImage := by
  simp [prepareInfo]

theorem showAll_ne_nilImage (ds : List Document) : l.showAll ds ≠ .error .nilImage := by
  simp [showAll, decodeAll_ne_nilImage AEPost.casts_ofDocument]

theorem act_ne_nilImage (a : TableAction) : l.act env a ≠ some (.error .nilImage) := by
  intro h
  unfold act at h
  split at h
  · split_ifs at h
    simp only [cellForRowAt, Option.some.injEq, bind_eq_error, trapping_eq_error, reduceCtorEq,
      and_false, exists_false, pure_ne_error, or_false, dequeue] at h
    split at h
    · cases h
    · simp [PostTableViewCell.prepareForReuse] at h
  · simp at h
  · simp at h
  · split at h
    · split_ifs at h
      simp only [PostTableViewCell.pressedSaveButton, Option.some.injEq, bind_eq_error,
        Env.uid_eq_error, reduceCtorEq, and_false, pure_ne_error, exists_false, false_or,
        or_false] at h
      obtain ⟨u, -, h⟩ := h
      split_ifs at h <;> cases h
    · cases h
  · split at h
    · split_ifs at h
      split at h
      · simp [callBackOnCommentButton, prepareInfo_ne_nilImage] at h
      · cases h
    · cases h

theorem receive_ne_nilImage (k : Callback) (r : Reply) :
    l.receive env k r ≠ some (.error .nilImage) := by
  intro h
  unfold receive at h
  split at h
  · next j document =>
    simp only [Option.map_eq_some_iff, bind_eq_error, pure_ne_error, and_false, exists_false,
      or_false] at h
    obtain ⟨cell, -, h⟩ := h
    cases document with
    | none => cases h
    | some d =>
      simp [PostTableViewCell.configureReply, (casts_getString d "avatarID").ne_nilImage] at h
  · next j document =>
    simp only [Option.map_eq_some_iff, bind_eq_error, pure_ne_error, and_false, exists_false,
      or_false] at h
    obtain ⟨cell, -, h⟩ := h
    cases document with
    | none => cases h
    | some d =>
      simp [PostTableViewCell.fillSaveButtonsReply,
        (casts_getArray d "savedPosts").ne_nilImage] at h
  · cases h

end PostListing

namespace Screen

variable {env : Env} {scr : Screen}

/-- The picture of a profile is unwrapped by `editTapped(_:)` only. -/
theorem editTapped_nilImage {s : UserProfileViewController} {x : Fault}
    (h : s.editTapped env = .error x) : x = .nilImage ∧ s.selfProfilePicture.image = none := by
  unfold UserProfileViewController.editTapped at h
  split_ifs at h
  · simp only [UserProfileViewController.commit] at h
    split at h
    · next himage =>
      cases h
      exact ⟨rfl, himage⟩
    · split_ifs at h
  · simp only [UserProfileViewController.startEditing] at h
    split at h
    · next himage =>
      cases h
      exact ⟨rfl, himage⟩
    · cases h

/-- **An action unwraps a missing picture** on the profile screen that has none. -/
theorem act_nilImage {a : Action} (h : scr.act env a = some (.error .nilImage)) :
    ∃ s, scr = .userProfile s ∧ s.selfProfilePicture.image = none := by
  replace h := act_cases h
  cases h
  case editTapped s h =>
    simp only [lift_eq_error] at h
    exact ⟨s, rfl, (editTapped_nilImage h).2⟩
  case table a h =>
    simp only [tableAct_eq, Option.bind_eq_some_iff, Option.map_eq_some_iff, lift_eq_error] at h
    obtain ⟨l, -, x, hx, rfl⟩ := h
    exact absurd hx (PostListing.act_ne_nilImage a)
  case didSelectRowAt h =>
    obtain ⟨l, -, -, h⟩ := didSelectRowAt_cases h
    simp only [lift_eq_error, PostListing.didSelectRowAt, bind_eq_error,
      PostListing.prepareInfo_ne_nilImage, pure_ne_error, and_false, exists_false, or_self] at h
  case refresh h =>
    cases refresh_cases h
    case saved h =>
      simp only [lift_eq_error] at h
      cases hload : SavedViewController.loadSavedPosts env with
      | ok es =>
        rw [hload] at h
        cases h
      | error f =>
        rw [hload] at h
        cases h
        simp [SavedViewController.loadSavedPosts] at hload
    all_goals
      rename_i h
      cases h
  case signUpPressed s h =>
    simp only [lift_eq_error, SignUpViewController.signUpPressed, bind_eq_error] at h
    rcases h with h | ⟨error, -, h⟩
    · obtain ⟨o, ho, -⟩ := s.validateFields_ok
      rw [ho] at h
      cases h
    · cases error <;> cases h
  case tappedMenu h =>
    simp only [lift_eq_error, HomeViewController.tappedMenu] at h
    split_ifs at h
    simp [MenuListController.viewDidLoad] at h
  case uploadPressed h =>
    simp only [lift_eq_error, UploadViewController.uploadPressed] at h
    split at h
    · cases h
    · simp at h
  case sendCommentPressed h =>
    simp only [lift_eq_error, CommentsViewController.sendCommentPressed] at h
    split_ifs at h
    simp at h
  case approvePost h | denyPost h | approveComment h | denyComment h =>
    simp [Queue.callBackOnApproveButton, Queue.callBackOnDenyButton] at h
  all_goals
    rename_i h
    simp only [lift_eq_error, Option.map_eq_some_iff, reduceCtorEq, and_false, exists_false] at h

/-- **A reply unwraps no picture.** -/
theorem receive_ne_nilImage (k : Callback) (r : Reply) :
    scr.receive env k r ≠ some (.error .nilImage) := by
  intro h
  have hstring := fun d key => (casts_getString d key).ne_nilImage
  have hposts := decodeAll_ne_nilImage AEPost.casts_ofDocument
  have hcomments := fun b => decodeAll_ne_nilImage (Comment.casts_ofDocument b)
  replace h := receive_cases h
  cases h
  case table h =>
    simp only [tableReceive_eq, Option.bind_eq_some_iff, Option.map_eq_some_iff,
      lift_eq_error] at h
    obtain ⟨l, -, x, hx, rfl⟩ := h
    exact absurd hx (PostListing.receive_ne_nilImage _ _)
  all_goals
    rename_i h
    simp only [lift_eq_error, reduceCtorEq, HomeViewController.loadPostsReply,
      MenuListController.viewDidLoadReply, OtherProfileViewController.loadInfoReply,
      OtherProfileViewController.loadPostsReply, SavedViewController.savedUserReply,
      SavedViewController.savedPostReply, UserProfileViewController.loadPostsReply,
      UserProfileViewController.loadInfoReply, UploadViewController.userReply,
      CommentsViewController.loadCommentsReply, CommentsViewController.userReply,
      Queue.loadPendingReply, Queue.denyReply] at h
  all_goals
    split at h
    all_goals
      simp [hstring, (casts_getBool _ _).ne_nilImage, (casts_getArray _ _).ne_nilImage,
        PostListing.showAll_ne_nilImage, hposts, hcomments, moderationPost,
        moderationComment] at h

end Screen

/-! ## Tables in order -/

namespace Queue

variable {α : Type} {m : Queue α} {s s' : PendingList α} {row : ℕ} {es : List Effect}

theorem safe_callBackOnApproveButton (h : s.Aligned) (hrow : row < s.rowCount) :
    Safe (fun x => x.1.Aligned) (m.callBackOnApproveButton s row) := by
  have hlt : row < s.items.length := h ▸ hrow
  simp only [callBackOnApproveButton, RowList.get_of_lt hlt, RowList.removeAt_of_aligned h hlt]
  refine .ok ?_
  rw [RowList.Aligned, List.length_eraseIdx_of_lt hlt]

theorem safe_callBackOnDenyButton (h : s.Aligned) (hrow : row < s.rowCount) :
    Safe (fun x => x.1.Aligned) (m.callBackOnDenyButton s row) := by
  simp only [callBackOnDenyButton, RowList.get_of_lt (h ▸ hrow)]
  exact .ok h

theorem safe_loadPendingReply (h : s.Aligned) (hm : ∀ d, Casts (m.ofDocument d))
    (r : Except String (List Document)) : Safe (fun x => x.1.Aligned) (m.loadPendingReply s r) := by
  cases r with
  | error err => exact .ok h
  | ok ds =>
    refine .bind (P := fun _ => True) (.decodeAll hm ds) fun items _ => ?_
    obtain ⟨s', hs', -, ha⟩ :=
      RowList.appendAll_of_aligned (RowList.aligned_removeAll (l := s)) items
    simp only [hs']
    exact .ok ha

/-- The completion of a denial removes the row it captured; it traps where that row is gone. -/
theorem denyReply_cases (m : Queue α) (h : s.Aligned) (row : ℕ) (e : Option String) :
    (∃ x, m.denyReply s row e = .ok x ∧ x.1.Aligned) ∨
      (e = none ∧ s.items.length ≤ row ∧
        m.denyReply s row e = .error (.trap .indexOutOfRange)) := by
  cases e with
  | some err => exact .inl ⟨_, rfl, h⟩
  | none =>
    rcases lt_or_ge row s.items.length with hlt | hge
    · left
      refine ⟨_, by simp only [denyReply, RowList.removeAt_of_aligned h hlt]; rfl, ?_⟩
      rw [RowList.Aligned, List.length_eraseIdx_of_lt hlt]
    · right
      refine ⟨rfl, hge, ?_⟩
      simp only [denyReply, RowList.removeAt_of_length_le hge]
      rfl

end Queue

namespace Screen

variable {env : Env} {scr scr' : Screen} {es : List Effect}

/-- The tables of a screen show what its arrays hold. -/
structure InOrder (scr : Screen) : Prop where
  posts : ∀ l, scr.listing = some l → ∃ posts, l.RowsOK posts
  pendingPosts : ∀ l, scr = .moderationPosts l → l.Aligned
  pendingComments : ∀ l, scr = .moderationComments l → l.Aligned

/-- The list of a moderation screen has no row `row`. -/
def LacksRow : Screen → ℕ → Prop
  | .moderationPosts s, row => s.items.length ≤ row
  | .moderationComments s, row => s.items.length ≤ row
  | _, _ => False

theorem RowsOK.inOrder {posts : List AEPost} (h : scr.RowsOK posts) : scr.InOrder := by
  obtain ⟨l, hl, hrows⟩ := h
  refine ⟨fun l' hl' => ⟨posts, ?_⟩, ?_, ?_⟩
  · cases hl.symm.trans hl'
    exact hrows
  · rintro l' rfl
    cases hl
  · rintro l' rfl
    cases hl

theorem inOrder_of_listing_none (h : scr.listing = none) (hposts : scr.kind ≠ .moderationPosts)
    (hcomments : scr.kind ≠ .moderationComments) : scr.InOrder := by
  refine ⟨fun l hl => ?_, ?_, ?_⟩
  · rw [h] at hl
    cases hl
  · rintro l rfl
    exact absurd rfl hposts
  · rintro l rfl
    exact absurd rfl hcomments

theorem inOrder_moderationPosts {s : PendingList AEPost} (h : s.Aligned) :
    (moderationPosts s).InOrder :=
  ⟨fun _ hl => (by cases hl), fun _ hl => (by cases hl; exact h), fun _ hl => (by cases hl)⟩

theorem inOrder_moderationComments {s : PendingList Comment} (h : s.Aligned) :
    (moderationComments s).InOrder :=
  ⟨fun _ hl => (by cases hl), fun _ hl => (by cases hl), fun _ hl => (by cases hl; exact h)⟩

/-- A moderation screen after a handler that leaves its list in order. -/
theorem safe_moderationPosts {x : Except Fault (After (PendingList AEPost))}
    (h : Safe (fun a => a.1.Aligned) x) : Safe (fun a => a.1.InOrder) (lift .moderationPosts x) :=
  .lift (P := InOrder) (h.mono fun _ ha => inOrder_moderationPosts ha)

theorem safe_moderationComments {x : Except Fault (After (PendingList Comment))}
    (h : Safe (fun a => a.1.Aligned) x) :
    Safe (fun a => a.1.InOrder) (lift .moderationComments x) :=
  .lift (P := InOrder) (h.mono fun _ ha => inOrder_moderationComments ha)

/-- The moderation screens have no text input. -/
theorem type_not_moderation {text : String} {field : TextInput}
    (h : scr.type text field = some scr') :
    scr.kind ≠ .moderationPosts ∧ scr.kind ≠ .moderationComments := by
  cases scr <;> simp_all [Screen.type, kind]

/-- **An action** keeps the tables in order and does not trap. -/
theorem InOrder.act (h : scr.InOrder) {a : Action} {r : Except Fault (After Screen)}
    (hr : scr.act env a = some r) : Safe (fun x => x.1.InOrder) r := by
  have hkind : ∀ x, r = .ok x → x.1.kind = scr.kind := fun x hx => (act_spec (hx ▸ hr)).1
  cases hl : scr.listing with
  | some l =>
    obtain ⟨posts, hposts⟩ := h.posts l hl
    exact (RowsOK.act ⟨l, hl, hposts⟩ hr).mono fun x hx => hx.inOrder
  | none =>
    have hplain : scr.kind ≠ .moderationPosts → scr.kind ≠ .moderationComments →
        (∀ t, r ≠ .error (.trap t)) → Safe (fun x => x.1.InOrder) r := by
      intro hposts hcomments htrap
      refine ⟨fun x hx => inOrder_of_listing_none ?_ (hkind x hx ▸ hposts)
        (hkind x hx ▸ hcomments), htrap⟩
      have hk := hkind x hx
      generalize x.1 = scr' at hk
      cases scr <;> cases hl <;> cases scr' <;> first | rfl | cases hk
    replace hr := act_cases hr
    cases hr
    case approvePost s row hrow hr | denyPost s row hrow hr =>
      have ha := h.pendingPosts s rfl
      subst hr
      first
        | exact safe_moderationPosts (Queue.safe_callBackOnApproveButton ha hrow)
        | exact safe_moderationPosts (Queue.safe_callBackOnDenyButton ha hrow)
    case approveComment s row hrow hr | denyComment s row hrow hr =>
      have ha := h.pendingComments s rfl
      subst hr
      first
        | exact safe_moderationComments (Queue.safe_callBackOnApproveButton ha hrow)
        | exact safe_moderationComments (Queue.safe_callBackOnDenyButton ha hrow)
    case refresh hr =>
      cases refresh_cases hr
      case moderationPosts hr | moderationComments hr =>
        cases hr
        exact .ok h
      all_goals cases hl
    case table hr =>
      rw [tableAct_eq, hl] at hr
      cases hr
    case didSelectRowAt hr =>
      obtain ⟨l, hl', -⟩ := didSelectRowAt_cases hr
      cases hl.symm.trans hl'
    case type hr =>
      obtain ⟨scr', hscr', rfl⟩ := Option.map_eq_some_iff.1 hr
      obtain ⟨hposts, hcomments⟩ := type_not_moderation hscr'
      exact hplain hposts hcomments fun t ht => by cases ht
    case signUpPressed s hr =>
      refine hplain (by simp [kind]) (by simp [kind]) fun t ht => ?_
      rw [← hr, lift_eq_error, SignUpViewController.signUpPressed] at ht
      obtain ⟨o, ho, -⟩ := s.validateFields_ok
      rw [ho] at ht
      cases o <;> cases ht
    case uploadPressed hr =>
      refine hplain (by simp [kind]) (by simp [kind]) fun t ht => ?_
      rw [← hr, lift_eq_error, UploadViewController.uploadPressed] at ht
      split at ht
      · cases ht
      · simp at ht
    case sendCommentPressed hr =>
      refine hplain (by simp [kind]) (by simp [kind]) fun t ht => ?_
      rw [← hr, lift_eq_error, CommentsViewController.sendCommentPressed] at ht
      dsimp only at ht
      split_ifs at ht
      simp at ht
    case tappedMenu | didSelectMenuRow | avatarPicked | editTapped | saveAndCancelTapped |
        ownPictureLoaded | otherPictureLoaded =>
      cases hl
    -- the other handlers cannot fail
    all_goals
      rename_i hr
      refine hplain (by simp [kind]) (by simp [kind]) fun t ht => ?_
      rw [← hr] at ht
      cases ht

/-- The result of a denial's completion, on whichever moderation screen. -/
theorem lift_denyReply {α : Type} {m : Queue α} {s : PendingList α} {f : PendingList α → Screen}
    {row : ℕ} {e : Option String} {res : Except Fault (After Screen)} (h : s.Aligned)
    (hr : lift f (m.denyReply s row e) = res) (hf : ∀ s', s'.Aligned → (f s').InOrder)
    (hlacks : s.items.length ≤ row → (f s).LacksRow row) :
    (∀ x, res = .ok x → x.1.InOrder) ∧ ∀ t, res = .error (.trap t) →
      t = .indexOutOfRange ∧ e = none ∧ (f s).LacksRow row := by
  subst hr
  rcases Queue.denyReply_cases m h row e with ⟨x, hx, ha⟩ | ⟨he, hge, hx⟩
  · rw [hx]
    exact ⟨fun y hy => by cases hy; exact hf _ ha, fun t ht => by cases ht⟩
  · rw [hx]
    exact ⟨fun y hy => (by cases hy), fun t ht => by cases ht; exact ⟨rfl, he, hlacks hge⟩⟩

/-- **A reply** keeps the tables in order. It traps only where the row of a denial is gone. -/
theorem InOrder.receive (h : scr.InOrder) {k : Callback} {r : Reply}
    {res : Except Fault (After Screen)} (hr : scr.receive env k r = some res) :
    (∀ x, res = .ok x → x.1.InOrder) ∧ ∀ t, res = .error (.trap t) →
      t = .indexOutOfRange ∧ ∃ row, k = .denied row ∧ r = .completion none ∧ scr.LacksRow row := by
  have hsafe : ∀ {x : Except Fault (After Screen)}, Safe (fun a => a.1.InOrder) x →
      (∀ a, x = .ok a → a.1.InOrder) ∧ ∀ t, x = .error (.trap t) →
        t = .indexOutOfRange ∧ ∃ row, k = .denied row ∧ r = .completion none ∧
          scr.LacksRow row :=
    fun hx => ⟨hx.1, fun t ht => absurd ht (hx.2 t)⟩
  cases hl : scr.listing with
  | some l =>
    obtain ⟨posts, hposts⟩ := h.posts l hl
    exact hsafe ((RowsOK.receive ⟨l, hl, hposts⟩ hr).mono fun x hx => hx.inOrder)
  | none =>
    have hplain : ∀ {σ : Type} {f : σ → Screen} {x : Except Fault (After σ)},
        (∀ a, (f a).InOrder) → Safe (fun _ => True) x → Safe (fun a => a.1.InOrder) (lift f x) :=
      fun hf hx => .lift (P := InOrder) (hx.mono fun a _ => hf a.1)
    have hnone : ∀ {s : Screen}, s.listing = none → s.kind ≠ .moderationPosts →
        s.kind ≠ .moderationComments → s.InOrder := inOrder_of_listing_none
    replace hr := receive_cases hr
    cases hr
    case pendingPosts s r hr =>
      cases hr
      exact hsafe (safe_moderationPosts (Queue.safe_loadPendingReply (h.pendingPosts s rfl)
        AEPost.casts_ofDocument r))
    case pendingComments s r hr =>
      cases hr
      exact hsafe (safe_moderationComments (Queue.safe_loadPendingReply (h.pendingComments s rfl)
        (Comment.casts_ofDocument false) r))
    case deniedPost s row e hr =>
      obtain ⟨hok, htrap⟩ := lift_denyReply (h.pendingPosts s rfl) hr
        (fun s' => inOrder_moderationPosts) fun hge => hge
      refine ⟨hok, fun t ht => ?_⟩
      obtain ⟨rfl, rfl, hlacks⟩ := htrap t ht
      exact ⟨rfl, row, rfl, rfl, hlacks⟩
    case deniedComment s row e hr =>
      obtain ⟨hok, htrap⟩ := lift_denyReply (h.pendingComments s rfl) hr
        (fun s' => inOrder_moderationComments) fun hge => hge
      refine ⟨hok, fun t ht => ?_⟩
      obtain ⟨rfl, rfl, hlacks⟩ := htrap t ht
      exact ⟨rfl, row, rfl, rfl, hlacks⟩
    case uploadUser d hr =>
      cases hr
      refine hsafe (hplain (fun a => hnone rfl (by simp [kind]) (by simp [kind])) ?_)
      cases d with
      | none => exact .ok trivial
      | some d => exact .bind (.casts (casts_getString _ _)) fun _ _ => .pure trivial
    case commentUser d hr =>
      cases hr
      refine hsafe (hplain (fun a => hnone rfl (by simp [kind]) (by simp [kind])) ?_)
      cases d with
      | none => exact .ok trivial
      | some d => exact .bind (.casts (casts_getString _ _)) fun _ _ => .pure trivial
    case comments s r hr =>
      cases hr
      refine hsafe (hplain (fun a => hnone rfl (by simp [kind]) (by simp [kind])) ?_)
      cases r with
      | error err => exact .ok trivial
      | ok ds =>
        refine .bind (P := fun _ => True) (.decodeAll (Comment.casts_ofDocument true) ds)
          fun items _ => ?_
        obtain ⟨rows, hrows, -⟩ :=
          RowList.appendAll_of_aligned (RowList.aligned_removeAll (l := s.commentsToShow)) items
        simp only [hrows]
        exact .ok trivial
    case table hr =>
      rw [tableReceive_eq, hl] at hr
      cases hr
    case uploadSet hr | uploadPut hr | commentSet hr | userCreated hr | userSet hr | signedIn hr =>
      cases hr
      exact hsafe (hplain (fun a => hnone rfl (by simp [kind]) (by simp [kind])) (.ok trivial))
    all_goals cases hl

end Screen

/-! ## Runs -/

namespace System

/-- The contract that the tables of every screen are in order. -/
def tablesInOrder (ι : Type) : Contract ι where
  screen _ scr := scr.InOrder
  call _ _ _ := True
  answer _ _ _ := True

theorem load_inOrder {env : Env} {d : Destination} {scr : Screen} {es : List Effect}
    (h : Screen.load env d = .ok (scr, es)) : scr.InOrder := by
  obtain ⟨rs, hl, -⟩ := Screen.load_loaded h
  have hempty : ∀ {l : PostListing}, l.postsToShow = {} → l.cells = [] → l.RowsOK [] := by
    intro l hposts hcells
    refine ⟨?_, ?_⟩
    · rw [hposts]
      rfl
    · rw [hcells]
      exact .nil
  cases hl with
  | userProfile | otherProfile | saved =>
    refine ⟨fun l hl => ⟨[], ?_⟩, fun _ hl => (by cases hl), fun _ hl => (by cases hl)⟩
    cases hl
    exact hempty rfl rfl
  | moderationPosts => exact Screen.inOrder_moderationPosts rfl
  | moderationComments => exact Screen.inOrder_moderationComments rfl
  | _ => exact Screen.inOrder_of_listing_none rfl (by simp [Screen.kind]) (by simp [Screen.kind])

/-- Loading a screen unwraps nothing but the user. -/
theorem load_nilUser {env : Env} {d : Destination} {x : Fault} (h : Screen.load env d = .error x) :
    x = .nilUser := by
  cases d with
  | userProfile =>
    simp only [Screen.load, UserProfileViewController.viewDidLoad, lift_eq_error, bind_eq_error,
      Env.uid_eq_error, pure_ne_error, and_false, exists_false, or_false] at h
    exact h.2
  | saved =>
    simp only [Screen.load, SavedViewController.viewDidLoad, SavedViewController.loadSavedPosts,
      lift_eq_error, bind_eq_error, Env.uid_eq_error, pure_ne_error, and_false, exists_false,
      or_false] at h
    exact h.2
  | otherProfile | comments => simp only [Screen.load, lift_eq_error, reduceCtorEq] at h
  | _ => cases h

theorem tablesInOrder_permits {ι : Type} (s : System ι) (scr : Screen) (e : Effect) :
    (tablesInOrder ι).Permits s scr e := by
  cases e with
  | segue d => exact fun env scr' es h => ⟨load_inOrder h, fun _ _ => trivial⟩
  | _ => trivial

theorem tablesInOrder_sound (ι : Type) [DecidableEq ι] : (tablesInOrder ι).Sound where
  screen _ h := h
  call _ h := h
  answer _ h := h
  initial _ := Screen.inOrder_of_listing_none rfl (by decide) (by decide)
  tabBar _ := Screen.inOrder_of_listing_none rfl (by decide) (by decide)
  home _ := by
    refine ⟨⟨fun l hl => ⟨[], ?_⟩, fun _ hl => (by cases hl), fun _ hl => (by cases hl)⟩,
      fun _ _ => trivial⟩
    cases hl
    exact ⟨rfl, .nil⟩
  act _ _ hscr _ hact :=
    ⟨(Screen.InOrder.act hscr hact).1 _ rfl, fun _ _ h => h, fun _ _ => tablesInOrder_permits ..⟩
  receive _ hkept _ _ _ hn hres :=
    ⟨(Screen.InOrder.receive (hkept.screens _ _ _ hn) hres).1 _ rfl, fun _ _ h => h,
      fun _ _ => tablesInOrder_permits ..⟩
  serve _ _ _ _ := trivial

section Cause

variable {ι : Type} {s t u : System ι} {c : ι} {k : ℕ} {x : Fault}

/-- What has ended the process of device `c`, as the device shows it afterwards. -/
inductive Cause (s : System ι) (c : ι) : Fault → Prop
  /-- Nobody is signed in. -/
  | nilUser (hu : (s.clients c).currentUser = none) : Cause s c .nilUser
  /-- The picture of the user's own profile has not been set yet. -/
  | nilImage {k : ℕ} {n : Node} {p : UserProfileViewController} (hn : s.At c k n)
      (hp : n.screen = .userProfile p) (himage : p.selfProfilePicture.image = none) :
      Cause s c .nilImage
  /-- The row of a denial that has succeeded is not in the list of its moderation screen. -/
  | rowGone {f : Flight ι} {n : CollectionName} {id : String} {row : ℕ} {nd : Node} (hf : f ∈ s.net)
      (hc : f.client = c) (hreq : f.request = .delete n id (.denied row))
      (hrep : f.reply = some (.completion none)) (hdel : f.delivered = true)
      (hnd : s.At c f.node nd) (hrow : nd.screen.LacksRow row) :
      Cause s c (.trap .indexOutOfRange)

/-- The cause can still be seen as long as the device does nothing. -/
theorem Cause.mono (h : s.Cause c x) (he : s.Extends t) (hc : t.clients c = s.clients c) :
    t.Cause c x := by
  have hat : ∀ {k n}, s.At c k n → t.At c k n := fun hn => by rwa [At, hc]
  cases h with
  | nilUser hu => exact .nilUser (by rwa [hc])
  | nilImage hn hp himage => exact .nilImage (hat hn) hp himage
  | rowGone hf hcl hreq hrep hdel hnd hrow =>
    obtain ⟨f', hf', hg⟩ := he.mem_net hf
    exact .rowGone hf' (hg.client.trans hcl) (hg.request.trans hreq) (hg.reply _ hrep)
      (hg.delivered hdel) (hg.node ▸ hat hnd) hrow

/-- Every process that has ended by a fault has a cause. -/
def Caused (s : System ι) (c : ι) : Prop :=
  ∀ x, (s.clients c).fault = some x → (s.clients c).running = false ∧ s.Cause c x

variable [DecidableEq ι]

/-- The effects of a handler end the process by the force unwrap of the user at most. -/
theorem unwraps_performOne {env : Env} (e : Effect)
    (h : ∀ x, (s.clients c).fault = some x →
      (s.clients c).running = false ∧ x = .nilUser ∧ (s.clients c).currentUser = none) :
    ∀ x, ((s.performOne c k env e).clients c).fault = some x →
      ((s.performOne c k env e).clients c).running = false ∧ x = .nilUser ∧
        ((s.performOne c k env e).clients c).currentUser = none := by
  cases e <;> simp only [performOne]
  case segue d =>
    cases hload : Screen.load { env with currentUser := (s.clients c).currentUser } d with
    | error f =>
      intro x hx
      simp only [openScreen, hload, crash, clients_modify, if_pos, Option.some.injEq] at hx ⊢
      exact ⟨trivial, hx ▸ load_nilUser hload, (Screen.load_error hload).1⟩
    | ok a =>
      simp only [openScreen, hload, clients_sendAll, clients_modify, if_pos]
      exact h
  case goToHome =>
    split_ifs
    · rw [clients_enterHome, if_pos rfl]
      exact h
    · exact h
  case presentInitial =>
    unfold enterInitial
    split_ifs
    · rw [clients_modify, if_pos rfl]
      exact h
    · rw [clients_enterHome, if_pos rfl, clients_modify, if_pos rfl]
      exact h
  case request r => exact h
  case signOut =>
    rw [clients_modify, if_pos rfl]
    exact fun x hx => ⟨(h x hx).1, (h x hx).2.1, rfl⟩
  all_goals
    rw [clients_modify, if_pos rfl]
    exact h

/-- **A handler** ends the process by its own fault, or by the force unwrap of the user. -/
theorem Caused.handle {env : Env} {res : Except Fault (After Screen)}
    (hnone : (s.clients c).fault = none)
    (hres : ∀ x, res = .error x → (s.crash c x).Cause c x) : (s.handle c k env res).Caused c := by
  cases res with
  | error x =>
    intro y hy
    rw [System.handle, crash, clients_modify, if_pos rfl] at hy
    cases hy
    refine ⟨?_, hres x rfl⟩
    rw [System.handle, crash, clients_modify, if_pos rfl]
  | ok a =>
    have hloop : ∀ x, ((s.handle c k env (.ok a)).clients c).fault = some x →
        ((s.handle c k env (.ok a)).clients c).running = false ∧ x = .nilUser ∧
          ((s.handle c k env (.ok a)).clients c).currentUser = none := by
      refine perform_induct (P := fun u => ∀ x, (u.clients c).fault = some x →
        (u.clients c).running = false ∧ x = .nilUser ∧ (u.clients c).currentUser = none) _ c k
        (fun x hx => ?_) fun u e _ hu => unwraps_performOne e hu
      rw [clients_modify, if_pos rfl] at hx
      rw [show ((s.clients c).setScreen k a.1).fault = (s.clients c).fault from rfl, hnone] at hx
      cases hx
    intro x hx
    obtain ⟨hrun, rfl, huser⟩ := hloop x hx
    exact ⟨hrun, .nilUser huser⟩

omit [DecidableEq ι] in
/-- A device that does nothing keeps its cause. -/
theorem Caused.mono (h : s.Caused c) (he : s.Extends t) (hc : t.clients c = s.clients c) :
    t.Caused c := by
  intro x hx
  rw [hc] at hx ⊢
  exact ⟨(h x hx).1, (h x hx).2.mono he hc⟩

omit [DecidableEq ι] in
/-- A process that runs has not been ended. -/
theorem Caused.fault_none (h : s.Caused c) (hrun : (s.clients c).running = true) :
    (s.clients c).fault = none := by
  cases hx : (s.clients c).fault with
  | none => rfl
  | some x =>
    rw [(h x hx).1] at hrun
    cases hrun

/-- A fault that is no failed cast, and where its handler runs without a trap. -/
theorem cause_of_crash {n : Node} (hn : s.At c k n) (hcast : x.NotCast)
    (huser : x = .nilUser → (s.clients c).currentUser = none)
    (himage : x = .nilImage → ∃ p, n.screen = .userProfile p ∧ p.selfProfilePicture.image = none)
    (htrap : ∀ t, x = .trap t → t = .indexOutOfRange ∧ ∃ f ∈ s.net, ∃ m id row, f.client = c ∧
      f.node = k ∧ f.request = .delete m id (.denied row) ∧
      f.reply = some (.completion none) ∧ f.delivered = true ∧ n.screen.LacksRow row) :
    (s.crash c x).Cause c x := by
  have hat : (s.crash c x).At c k n := by
    rw [crash, At, clients_modify, if_pos rfl]
    exact hn
  cases x with
  | nilUser => exact .nilUser (by rw [crash, clients_modify, if_pos rfl]; exact huser rfl)
  | nilImage =>
    obtain ⟨p, hp, hi⟩ := himage rfl
    exact .nilImage hat hp hi
  | cast key => exact absurd rfl (hcast key)
  | trap tr =>
    obtain ⟨rfl, f, hf, m, id, row, hc, rfl, hreq, hrep, hdel, hlacks⟩ := htrap tr rfl
    exact .rowGone hf hc hreq hrep hdel hat hlacks

theorem Caused.act (h : s.Caused c) (hkept : (tablesInOrder ι).Kept s) {a : Action} {env : Env}
    (hs : s.act c k a env = some t) : t.Caused c := by
  obtain ⟨n, res, hn, hrun, -, -, hact, rfl⟩ := act_cases hs
  have hsafe := Screen.InOrder.act (hkept.screens c k n hn) hact
  refine Caused.handle (by rw [clients_draw]; exact h.fault_none hrun) fun x hx => ?_
  subst hx
  refine cause_of_crash (n := n) (k := k) (by rwa [At, clients_draw])
    (fun key hx => Screen.act_noCast hact key (congrArg _ hx)) (fun hx => ?_) (fun hx => ?_)
    fun tr hx => absurd (congrArg _ hx) (hsafe.2 tr)
  · subst hx
    rw [clients_draw]
    exact (Screen.act_nilUser hact).1
  · subst hx
    exact Screen.act_nilImage hact

/-- A delivery leaves the causes that it finds on its device, and its closure has a cause. -/
theorem Caused.deliver (h : s.Caused c) (hkept : (tablesInOrder ι).Kept s) (hinv : s.Inv False)
    (htyped : s.Typed) {i date : ℕ} {f : Flight ι} (hi : s.net[i]? = some f)
    (hc : f.client = c) (hs : s.deliver i date = some t) : t.Caused c := by
  subst hc
  obtain ⟨f', r, hi', hrep, -, hcase⟩ := deliver_cases hs
  cases hi.symm.trans hi'
  have hf := List.mem_of_getElem? hi
  rcases hcase with ⟨-, rfl⟩ | ⟨halive, u, rfl, hs'⟩
  · exact h.mono (extends_mark hi) rfl
  have hnone := h.fault_none halive.1
  have hnone' : (((s.mark i f).signIn f.client r).clients f.client).fault = none := by
    unfold signIn
    split
    · rw [clients_modify, if_pos rfl]
      exact hnone
    · exact hnone
  rcases hs' with ⟨rfl, -⟩ | ⟨kb, n, res, hk, hn, hres, rfl⟩
  · intro x hx
    rw [hnone'] at hx
    cases hx
  refine Caused.handle hnone' fun x hx => ?_
  subst hx
  have hn₀ : s.At f.client f.node n := by
    unfold signIn at hn
    split at hn
    · rwa [At, clients_modify, if_pos rfl] at hn
    · exact hn
  refine cause_of_crash hn (fun key hx => ?_) (fun hx => ?_) (fun hx => ?_) fun tr hx => ?_
  · refine Screen.receive_noCast (fun m d hread hd => ?_) hres key (congrArg _ hx)
    exact htyped.held m d (.inr ⟨f, hf, r, hinv.reads hf hk hn₀ hread, hrep, hd⟩)
  · subst hx
    exact (Screen.receive_nilUser_iff.1 hres).1
  · subst hx
    exact absurd hres (Screen.receive_ne_nilImage kb r)
  · subst hx
    obtain ⟨htr, row, rfl, rfl, hlacks⟩ :=
      (Screen.InOrder.receive (hkept.screens _ _ _ hn₀) hres).2 tr rfl
    refine ⟨htr, { f with delivered := true }, ?_, ?_⟩
    · exact List.mem_set (List.getElem?_eq_some_iff.1 hi).1 _
    · have hcalls := hinv.calls f hf
      generalize hreq : f.request = req at hcalls hk
      cases hcalls <;> cases hk
      exact ⟨_, _, _, rfl, rfl, rfl, hrep, rfl, hlacks⟩

theorem Caused.step (h : ∀ c, s.Caused c) (hkept : (tablesInOrder ι).Kept s) (hinv : s.Inv False)
    (htyped : s.Typed) {e : Event ι} (hs : s.step e = some t) (c : ι) : t.Caused c := by
  have he := step_extends hs
  cases e with
  | launch c' =>
    cases hs
    by_cases hcc : c = c'
    · subst hcc
      intro x hx
      have hfault : ((s.launch c).clients c).fault = none := by
        unfold launch enterInitial
        split_ifs
        · rw [clients_modify, if_pos rfl, clients_modify, if_pos rfl]
          rfl
        · rw [clients_enterHome, if_pos rfl, clients_modify, if_pos rfl, clients_modify, if_pos rfl]
          rfl
      rw [hfault] at hx
      cases hx
    · refine (h c).mono he ?_
      rw [launch, clients_enterInitial_of_ne hcc, clients_modify, if_neg hcc]
  | act c' k a env =>
    by_cases hcc : c = c'
    · subst hcc
      exact (h c).act hkept hs
    · refine (h c).mono he ?_
      obtain ⟨n, res, -, -, -, -, -, rfl⟩ := act_cases hs
      rw [clients_handle_of_ne hcc, clients_draw]
  | serve i a =>
    refine (h c).mono he ?_
    obtain ⟨f, u, r, -, -, hserved, net, rfl, -⟩ := serve_cases hs
    rw [show ({ u with net := net } : System ι).clients = u.clients from rfl, hserved.frame.1]
  | deliver i date =>
    obtain ⟨f, r, hi, -, -, hcase⟩ := deliver_cases hs
    by_cases hcc : f.client = c
    · exact (h c).deliver hkept hinv htyped hi hcc hs
    · refine (h c).mono he ?_
      have hsign : ((s.mark i f).signIn f.client r).clients c = s.clients c := by
        unfold signIn
        split
        · rw [clients_modify, if_neg (Ne.symm hcc)]
          rfl
        · rfl
      rcases hcase with ⟨-, rfl⟩ | ⟨-, u, rfl, ⟨rfl, -⟩ | ⟨kb, n, res, -, -, -, rfl⟩⟩
      · rfl
      · exact hsign
      · rw [clients_handle_of_ne (Ne.symm hcc), hsign]
  | setMod uid mod =>
    refine (h c).mono he ?_
    cases hs
    rfl

/-- **Every process that has ended by a fault has one of the three causes**, and shows it: nobody is
signed in, or a profile has no picture yet, or a denial has come back for a row that is no longer
there. No cast, no batch update and no other subscript ever fails. -/
theorem crash_causes (h : (machine ι).Reachable s) (hx : (s.clients c).fault = some x) :
    (s.clients c).running = false ∧ s.Cause c x := by
  have hcaused : ∀ c, s.Caused c := by
    refine h.induct (I := fun s => ∀ c, s.Caused c) (fun s h₀ c x hx => ?_)
      fun s e t hvia hi _ hs => ?_
    · rw [h₀.clients c] at hx
      cases hx
    · exact Caused.step hi ((tablesInOrder_sound ι).kept hvia)
        (reachable_inv (hvia.mono fun _ _ _ => False.elim)) (reachable_typed hvia) hs
  exact hcaused c x hx

/-- A moderator denies the only row, and approves it before the denial has been answered. -/
theorem crash_causes_rowGone : ∃ s : System ℕ,
    (s.clients 1).fault = some (.trap .indexOutOfRange) ∧
      (s.clients 1).running = false ∧ s.Cause 1 (.trap .indexOutOfRange) := by
  obtain ⟨s, hs, hp⟩ := (machine ℕ).exists_of_run (start annMoAndMax)
    (pendingPostEvents ++ [.act 1 5 (.deny 0) {}, .act 1 5 (.approve 0) {}] ++ answerEvents 8)
    (fun s => decide ((s.clients 1).fault = some (.trap .indexOutOfRange))) (by decide +kernel)
  have hfault := of_decide_eq_true hp
  exact ⟨s, hfault, crash_causes (hs.reachable (reachable_start _)) hfault⟩

end Cause

end System

end ArtsExplorer
