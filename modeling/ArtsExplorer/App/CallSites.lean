import ArtsExplorer.App.Screen

/-!
# The call sites

What a screen's handlers can do, read off the code once. `Screen.Emits env scr a e` lists every
place where a handler of screen `scr` has the effect `e` on action `a`, and `Screen.Answers` those
where a closure has one; a constructor is a call site, with what the code has checked there.
`act_spec` and `receive_answers` say that the lists are complete, `act_spec` and `receive_kind` that
a handler never turns its screen into one of another kind.
-/

namespace ArtsExplorer

open Foundations

@[simp] theorem lift_eq_ok {σ : Type} {f : σ → Screen} {r : Except Fault (After σ)}
    {a : After Screen} : lift f r = .ok a ↔ ∃ x, r = .ok x ∧ a = (f x.1, x.2) := by
  cases r <;> simp [lift, Except.map, eq_comm]

@[simp] theorem lift_eq_error {σ : Type} {f : σ → Screen} {r : Except Fault (After σ)}
    {x : Fault} : lift f r = .error x ↔ r = .error x := by
  cases r <;> simp [lift, Except.map]

/-! ## Kinds of screens -/

inductive ScreenKind
  | initial | signUp | logIn | tabBar | home | otherProfile | saved | userProfile | upload
  | comments
  | moderation | moderationPosts | moderationComments
  deriving DecidableEq

def Screen.kind : Screen → ScreenKind
  | .initial => .initial
  | .signUp _ => .signUp
  | .logIn _ => .logIn
  | .tabBar _ _ => .tabBar
  | .home _ => .home
  | .otherProfile _ => .otherProfile
  | .saved _ => .saved
  | .userProfile _ => .userProfile
  | .upload _ => .upload
  | .comments _ => .comments
  | .moderation => .moderation
  | .moderationPosts _ => .moderationPosts
  | .moderationComments _ => .moderationComments

/-- The kind of screen a segue creates. -/
def Destination.kind : Destination → ScreenKind
  | .signUp => .signUp
  | .logIn => .logIn
  | .upload => .upload
  | .userProfile => .userProfile
  | .otherProfile _ _ => .otherProfile
  | .saved => .saved
  | .comments _ _ => .comments
  | .moderation => .moderation
  | .moderationPosts => .moderationPosts
  | .moderationComments => .moderationComments

/-- The screens of the initial navigation controller. -/
def ScreenKind.isEntry : ScreenKind → Bool
  | .initial | .signUp | .logIn => true
  | _ => false

/-- The query of a moderation screen. -/
def pendingQuery (limit : ℕ) : Query :=
  { filters := [.isEqualTo "approved" (.bool false)], orderBy := "time", descending := false,
    limit := limit }

namespace Screen

variable {env : Env} {scr scr' : Screen} {es : List Effect}

/-- The list of posts of the four screens that have one. -/
def listing : Screen → Option PostListing
  | .home s => some s.listing
  | .otherProfile s => some s.listing
  | .saved s => some s.listing
  | .userProfile s => some s.listing
  | _ => none

/-- The screen with another list of posts. -/
def setListing (l : PostListing) : Screen → Screen
  | .home s => .home { s with listing := l }
  | .otherProfile s => .otherProfile { s with listing := l }
  | .saved s => .saved { s with listing := l }
  | .userProfile s => .userProfile { s with listing := l }
  | s => s

@[simp] theorem setListing_kind (l : PostListing) : (scr.setListing l).kind = scr.kind := by
  cases scr <;> rfl

theorem tableAct_eq (a : TableAction) :
    scr.tableAct env a =
      scr.listing.bind fun l => (l.act env a).map (lift fun l' => scr.setListing l') := by
  cases scr <;> rfl

theorem tableReceive_eq (k : Callback) (r : Reply) :
    scr.tableReceive env k r =
      scr.listing.bind fun l => (l.receive env k r).map (lift fun l' => scr.setListing l') := by
  cases scr <;> rfl

theorem tableAct_ok {a : TableAction} (h : scr.tableAct env a = some (.ok (scr', es))) :
    ∃ l l', scr.listing = some l ∧ l.act env a = some (.ok (l', es)) ∧
      scr' = scr.setListing l' := by
  rw [tableAct_eq, Option.bind_eq_some_iff] at h
  obtain ⟨l, hl, h⟩ := h
  simp only [Option.map_eq_some_iff, lift_eq_ok, Prod.mk.injEq] at h
  obtain ⟨_, hr, ⟨l', es'⟩, rfl, rfl, rfl⟩ := h
  exact ⟨l, l', hl, hr, rfl⟩

theorem tableReceive_ok {k : Callback} {r : Reply}
    (h : scr.tableReceive env k r = some (.ok (scr', es))) :
    ∃ l l', scr.listing = some l ∧ l.receive env k r = some (.ok (l', es)) ∧
      scr' = scr.setListing l' := by
  rw [tableReceive_eq, Option.bind_eq_some_iff] at h
  obtain ⟨l, hl, h⟩ := h
  simp only [Option.map_eq_some_iff, lift_eq_ok, Prod.mk.injEq] at h
  obtain ⟨_, hr, ⟨l', es'⟩, rfl, rfl, rfl⟩ := h
  exact ⟨l, l', hl, hr, rfl⟩

theorem didSelectRowAt_cases {row : ℕ} {x : Except Fault (After Screen)}
    (h : scr.didSelectRowAt row = some x) :
    ∃ l, scr.listing = some l ∧ row < l.postsToShow.rowCount ∧
      lift (fun l' => scr.setListing l') (l.didSelectRowAt row) = x := by
  cases scr <;> simp only [didSelectRowAt, reduceCtorEq] at h
  all_goals
    split_ifs at h with hrow
    exact ⟨_, rfl, hrow, Option.some.inj h⟩

theorem didSelectRowAt_ok {row : ℕ} (h : scr.didSelectRowAt row = some (.ok (scr', es))) :
    ∃ l l', scr.listing = some l ∧ l.didSelectRowAt row = .ok (l', es) ∧
      scr' = scr.setListing l' := by
  obtain ⟨l, hl, -, h⟩ := didSelectRowAt_cases h
  simp only [lift_eq_ok, Prod.mk.injEq] at h
  obtain ⟨⟨l', es'⟩, hr, rfl, rfl⟩ := h
  exact ⟨l, l', hl, hr, rfl⟩

/-- The screens as their segues create them, with the calls of their `viewDidLoad`. -/
inductive Loaded (env : Env) : Destination → Screen → List Request → Prop
  | signUp : Loaded env .signUp (.signUp {}) []
  | logIn : Loaded env .logIn (.logIn {}) []
  | upload : Loaded env .upload (.upload UploadViewController.viewDidLoad) []
  | userProfile (u : String) (hu : env.currentUser = some u) :
      Loaded env .userProfile (.userProfile { listing := { opID := u } })
        [.getDocuments .posts (UserProfileViewController.postsBy u) .profilePosts,
         .getDocument .users u .profileInfo]
  | otherProfile (otherUserID otherUserName : String) :
      Loaded env (.otherProfile otherUserID otherUserName)
        (.otherProfile { otherUserID := otherUserID, otherUserName := otherUserName })
        [.getDocument .users otherUserID .otherInfo,
         .getDocuments .posts (OtherProfileViewController.approvedPostsBy otherUserID) .otherPosts]
  | saved (u : String) (hu : env.currentUser = some u) :
      Loaded env .saved (.saved {}) [.getDocument .users u .savedUser]
  | comments (postID opName : String) :
      Loaded env (.comments postID opName)
        (.comments (CommentsViewController.viewDidLoad postID opName).1)
        [.addSnapshotListener .comments (CommentsViewController.approvedComments postID) .comments]
  | moderation : Loaded env .moderation .moderation []
  | moderationPosts :
      Loaded env .moderationPosts (.moderationPosts {})
        [.getDocuments .posts (pendingQuery 15) .pending]
  | moderationComments :
      Loaded env .moderationComments (.moderationComments {})
        [.getDocuments .comments (pendingQuery 20) .pending]

theorem load_loaded {d : Destination} (h : load env d = .ok (scr, es)) :
    ∃ rs, Loaded env d scr rs ∧ es = rs.map .request := by
  cases d
  case userProfile =>
    simp only [load, UserProfileViewController.viewDidLoad, lift_eq_ok, bind_eq_ok, Env.uid_eq_ok,
      pure_eq_ok, Prod.mk.injEq] at h
    obtain ⟨_, ⟨u, hu, rfl⟩, rfl, rfl⟩ := h
    exact ⟨_, .userProfile u hu, rfl⟩
  case saved =>
    simp only [load, SavedViewController.viewDidLoad, SavedViewController.loadSavedPosts,
      lift_eq_ok,
      bind_eq_ok, Env.uid_eq_ok, pure_eq_ok, Prod.mk.injEq] at h
    obtain ⟨_, ⟨_, ⟨u, hu, rfl⟩, rfl⟩, rfl, rfl⟩ := h
    exact ⟨_, .saved u hu, rfl⟩
  all_goals
    simp only [load, lift_eq_ok, Except.ok.injEq, Prod.mk.injEq, exists_eq_left'] at h
    obtain ⟨rfl, rfl⟩ := h
  case signUp => exact ⟨_, .signUp, rfl⟩
  case logIn => exact ⟨_, .logIn, rfl⟩
  case upload => exact ⟨_, .upload, rfl⟩
  case otherProfile => exact ⟨_, .otherProfile .., rfl⟩
  case comments => exact ⟨_, .comments .., rfl⟩
  case moderation => exact ⟨_, .moderation, rfl⟩
  case moderationPosts => exact ⟨_, .moderationPosts, rfl⟩
  case moderationComments => exact ⟨_, .moderationComments, rfl⟩

theorem load_kind {d : Destination} (h : load env d = .ok (scr, es)) : scr.kind = d.kind := by
  obtain ⟨rs, h, -⟩ := load_loaded h
  cases h <;> rfl

theorem type_kind {text : String} {field : TextInput} (h : scr.type text field = some scr') :
    scr'.kind = scr.kind := by
  unfold Screen.type at h
  split at h <;> first
    | (cases h; rfl)
    | (split_ifs at h; cases h; rfl)
    | cases h

theorem receive_kind {k : Callback} {r : Reply} (h : scr.receive env k r = some (.ok (scr', es))) :
    scr'.kind = scr.kind := by
  unfold receive at h
  split at h
  all_goals
    first
      | (obtain ⟨l, l', -, -, rfl⟩ := tableReceive_ok h; exact setListing_kind l')
      | (simp only [Option.some.injEq, lift_eq_ok, Prod.mk.injEq] at h
         obtain ⟨-, -, rfl, -⟩ := h
         rfl)

end Screen

/-! ## The shape of effect lists -/

/-- The effects that leave the screens where they are. -/
def Effect.isQuiet : Effect → Bool
  | .request _ | .createAlert _ _ => true
  | _ => false

/-- A handler navigates at most once and last; only the log-out signs out, and then shows the
initial screen. -/
inductive Tidy : List Effect → Prop
  | quiet {es : List Effect} (h : ∀ e ∈ es, e.isQuiet = true) : Tidy es
  | last {es : List Effect} {e : Effect} (h : ∀ e ∈ es, e.isQuiet = true) (he : e ≠ .signOut) :
      Tidy (es ++ [e])
  | logOut : Tidy [.signOut, .presentInitial]

theorem Tidy.nil : Tidy [] := .quiet (by simp)

theorem Tidy.singleton {e : Effect} (he : e ≠ .signOut) : Tidy [e] := @Tidy.last [] e (by simp) he

/-! ## Lists of posts -/

namespace PostListing

variable {env : Env} {l l' : PostListing} {es : List Effect} {e : Effect}

/-- A cell on the screen shows post `id`. -/
def Shows (l : PostListing) (id : String) : Prop :=
  ∃ cell ∈ l.cells, cell.row ≠ none ∧ cell.postID = id

/-- What an action on a list of posts calls and opens; the flag says whether it is the user's. -/
inductive Emits (env : Env) (l : PostListing) : Bool → Effect → Prop
  /-- `configure(with:)`. -/
  | avatar {b} (opID : String) (j : ℕ) :
      Emits env l b (.request (.getDocument .users opID (.cellAvatar j)))
  /-- `prepareForReuse()`. -/
  | reuse {b} (u : String) (j : ℕ) (hu : env.currentUser = some u) :
      Emits env l b (.request (.getDocument .users u (.cellSavedPosts j)))
  /-- `pressedSaveButton(_:)`. -/
  | save (u id : String) (v : FieldValue) (hu : env.currentUser = some u) (hid : l.Shows id)
      (hv : v = .arrayUnion [id] ∨ v = .arrayRemove [id]) :
      Emits env l true (.request (.updateData .users u [("savedPosts", v)]))
  /-- `callBackOnCommentButton`. -/
  | comments (post : AEPost) (hp : post ∈ l.postsToShow.items) :
      Emits env l true (.segue (.comments post.id post.opName))
  /-- `tableView(_:didSelectRowAt:)`. -/
  | otherProfile (post : AEPost) (hp : post ∈ l.postsToShow.items) :
      Emits env l true (.segue (.otherProfile post.opID post.opName))

/-- What a step of the table leaves: the same posts, cells that show what they showed or one of
these posts, and the author copied from one of them. -/
structure Follows (l l' : PostListing) : Prop where
  postsToShow : l'.postsToShow = l.postsToShow
  shows : ∀ id, l'.Shows id → l.Shows id ∨ ∃ post ∈ l.postsToShow.items, post.id = id
  opID : l'.opID = l.opID ∨ ∃ post ∈ l.postsToShow.items, post.opID = l'.opID

theorem Follows.refl (l : PostListing) : l.Follows l := ⟨rfl, fun _ h => .inl h, .inl rfl⟩

/-- Replacing cell `k` by one that shows the same post or one of the list's. -/
theorem follows_set {cells : List PostTableViewCell} {k : ℕ} {cell' : PostTableViewCell}
    (hcells : ∀ cell ∈ cells, cell.row ≠ none → l.Shows cell.postID)
    (h : cell'.row ≠ none → l.Shows cell'.postID ∨ ∃ post ∈ l.postsToShow.items,
      post.id = cell'.postID) :
    l.Follows { l with cells := cells.set k cell' } := by
  refine ⟨rfl, ?_, .inl rfl⟩
  rintro id ⟨x, hx, hrow, rfl⟩
  rcases List.mem_or_eq_of_mem_set hx with hx | rfl
  · exact .inl (hcells x hx hrow)
  · exact h hrow

theorem shows_of_mem {cell : PostTableViewCell} (h : cell ∈ l.cells) (hrow : cell.row ≠ none) :
    l.Shows cell.postID := ⟨cell, h, hrow, rfl⟩

theorem prepareInfo_spec {row : ℕ} (h : l.prepareInfo row = .ok l') :
    l.Follows l' ∧ ∃ post ∈ l.postsToShow.items,
      l'.opID = post.opID ∧ l'.opName = post.opName ∧ l'.postID = post.id := by
  simp only [prepareInfo, bind_eq_ok, trapping_eq_ok, pure_eq_ok] at h
  obtain ⟨post, hpost, rfl⟩ := h
  have hmem := RowList.mem_of_get hpost
  exact ⟨⟨rfl, fun _ h => .inl h, .inr ⟨post, hmem, rfl⟩⟩, post, hmem, rfl, rfl, rfl⟩

theorem didSelectRowAt_spec {row : ℕ} (h : l.didSelectRowAt row = .ok (l', es)) :
    l.Follows l' ∧ Tidy es ∧ ∀ e ∈ es, l.Emits env true e := by
  simp only [didSelectRowAt, bind_eq_ok, pure_eq_ok, Prod.mk.injEq] at h
  obtain ⟨m, hm, rfl, rfl⟩ := h
  obtain ⟨hf, post, hmem, hop, hname, -⟩ := prepareInfo_spec hm
  refine ⟨hf, .singleton (by simp), ?_⟩
  rintro e he
  rw [List.mem_singleton.1 he, hop, hname]
  exact .otherProfile post hmem

theorem callBackOnCommentButton_spec {row : ℕ} (h : l.callBackOnCommentButton row = .ok (l', es)) :
    l.Follows l' ∧ Tidy es ∧ ∀ e ∈ es, l.Emits env true e := by
  simp only [callBackOnCommentButton, bind_eq_ok, pure_eq_ok, Prod.mk.injEq] at h
  obtain ⟨m, hm, rfl, rfl⟩ := h
  obtain ⟨hf, post, hmem, -, hname, hid⟩ := prepareInfo_spec hm
  refine ⟨hf, .singleton (by simp), ?_⟩
  rintro e he
  rw [List.mem_singleton.1 he, hname, hid]
  exact .comments post hmem

/-- What `dequeueReusableCell` hands out and calls. -/
theorem dequeue_spec {reuse : Option ℕ} {cells : List PostTableViewCell} {k : ℕ}
    (h : l.dequeue env reuse = .ok (cells, k, es)) :
    (∀ cell ∈ cells, cell.row ≠ none → l.Shows cell.postID) ∧
      ∀ e ∈ es, e.isQuiet = true ∧ l.Emits env false e := by
  unfold dequeue at h
  split at h
  · simp only [Except.ok.injEq, Prod.mk.injEq] at h
    obtain ⟨rfl, -, rfl⟩ := h
    refine ⟨?_, by simp⟩
    intro cell hc hrow
    rcases List.mem_append.1 hc with hc | hc
    · exact shows_of_mem hc hrow
    · rw [List.mem_singleton.1 hc] at hrow
      exact absurd rfl hrow
  · simp only [PostTableViewCell.prepareForReuse, bind_eq_ok, Env.uid_eq_ok, pure_eq_ok,
      Prod.mk.injEq] at h
    obtain ⟨_, ⟨u, hu, rfl⟩, rfl, rfl, rfl⟩ := h
    refine ⟨fun cell hc hrow => shows_of_mem hc hrow, ?_⟩
    intro e he
    rw [List.mem_singleton.1 he]
    exact ⟨rfl, .reuse u _ hu⟩

theorem cellForRowAt_spec {row : ℕ} {reuse : Option ℕ}
    (h : l.cellForRowAt env row reuse = .ok (l', es)) :
    l.Follows l' ∧ ∀ e ∈ es, e.isQuiet = true ∧ l.Emits env false e := by
  simp only [cellForRowAt, bind_eq_ok, trapping_eq_ok, pure_eq_ok, Prod.mk.injEq] at h
  obtain ⟨⟨cells, k, reused⟩, hd, post, hpost, rfl, rfl⟩ := h
  obtain ⟨hcells, hreused⟩ := dequeue_spec hd
  refine ⟨follows_set hcells fun _ => .inr ⟨post, RowList.mem_of_get hpost, rfl⟩, ?_⟩
  intro e he
  rcases List.mem_append.1 he with he | he
  · exact hreused e he
  · rw [List.mem_singleton.1 he]
    exact ⟨rfl, .avatar _ _⟩

/-- A press of the save button. -/
theorem pressedSaveButton_spec {cell cell' : PostTableViewCell}
    (h : cell.pressedSaveButton env = .ok (cell', es)) :
    cell'.postID = cell.postID ∧ cell'.row = cell.row ∧ ∃ u v, env.currentUser = some u ∧
      (v = .arrayUnion [cell.postID] ∨ v = .arrayRemove [cell.postID]) ∧
      es = [.request (.updateData .users u [("savedPosts", v)])] := by
  simp only [PostTableViewCell.pressedSaveButton, bind_eq_ok, Env.uid_eq_ok] at h
  obtain ⟨u, hu, h⟩ := h
  split_ifs at h <;> simp only [pure_eq_ok, Prod.mk.injEq] at h <;> obtain ⟨rfl, rfl⟩ := h
  · exact ⟨rfl, rfl, u, _, hu, .inr rfl, rfl⟩
  · exact ⟨rfl, rfl, u, _, hu, .inl rfl, rfl⟩

/-- **A step of a table**, where it goes through. -/
theorem act_spec {a : TableAction} (h : l.act env a = some (.ok (l', es))) :
    l.Follows l' ∧ Tidy es ∧ ∀ e ∈ es, l.Emits env a.byUser e := by
  have hset {k : ℕ} {cell cell' : PostTableViewCell} (hk : l.cells[k]? = some cell)
      (hid : cell'.postID = cell.postID) (hrow : cell'.row ≠ none → cell.row ≠ none) :
      l.Follows { l with cells := l.cells.set k cell' } :=
    follows_set (fun _ => shows_of_mem) fun h =>
      .inl (hid ▸ shows_of_mem (List.mem_of_getElem? hk) (hrow h))
  cases a with
  | cellForRowAt row reuse =>
    simp only [act] at h
    split_ifs at h
    obtain ⟨hf, he⟩ := cellForRowAt_spec (Option.some.inj h)
    exact ⟨hf, .quiet fun e h => (he e h).1, fun e h => (he e h).2⟩
  | didEndDisplaying k =>
    simp only [act, Option.map_eq_some_iff, Except.ok.injEq, Prod.mk.injEq] at h
    obtain ⟨cell, hk, rfl, rfl⟩ := h
    exact ⟨hset hk rfl (fun h => absurd rfl h), .nil, by simp⟩
  | imageLoaded k ofPost found =>
    simp only [act, Option.map_eq_some_iff, Except.ok.injEq, Prod.mk.injEq] at h
    obtain ⟨cell, hk, rfl, rfl⟩ := h
    refine ⟨hset hk ?_ ?_, .nil, by simp⟩ <;> unfold finishLoad <;> split_ifs <;> simp
  | pressedSaveButton k =>
    simp only [act] at h
    split at h
    · next cell hk =>
      split_ifs at h with hrow
      simp only [Option.some.injEq, bind_eq_ok, pure_eq_ok, Prod.mk.injEq] at h
      obtain ⟨⟨cell', es'⟩, hp, rfl, rfl⟩ := h
      obtain ⟨hid, hr, u, v, hu, hv, rfl⟩ := pressedSaveButton_spec hp
      refine ⟨hset hk hid (hr ▸ id), .singleton (by simp), ?_⟩
      intro e he
      rw [List.mem_singleton.1 he]
      exact .save u _ v hu (shows_of_mem (List.mem_of_getElem? hk) hrow) hv
    · cases h
  | pressedViewComments k =>
    simp only [act] at h
    split at h
    · next cell hk =>
      split_ifs at h with hrow
      split at h
      · exact callBackOnCommentButton_spec (Option.some.inj h)
      · simp only [Option.some.injEq, Except.ok.injEq, Prod.mk.injEq] at h
        obtain ⟨rfl, rfl⟩ := h
        exact ⟨.refl l, .nil, by simp⟩
    · cases h

/-- **A reply to a cell**, where it goes through. -/
theorem receive_spec {k : Callback} {r : Reply} (h : l.receive env k r = some (.ok (l', es))) :
    l.Follows l' ∧ ∀ e ∈ es, ∃ u j, env.currentUser = some u ∧
      e = .request (.getDocument .users u (.cellSavedPosts j)) := by
  have hset {k : ℕ} {cell cell' : PostTableViewCell} (hk : l.cells[k]? = some cell)
      (hid : cell'.postID = cell.postID) (hrow : cell'.row = cell.row) :
      l.Follows { l with cells := l.cells.set k cell' } :=
    follows_set (fun _ => shows_of_mem) fun h =>
      .inl (hid ▸ shows_of_mem (List.mem_of_getElem? hk) (hrow ▸ h))
  unfold receive at h
  split at h
  · simp only [Option.map_eq_some_iff, bind_eq_ok, pure_eq_ok, Prod.mk.injEq] at h
    obtain ⟨cell, hk, ⟨cell', es'⟩, hc, rfl, rfl⟩ := h
    unfold PostTableViewCell.configureReply at hc
    split at hc
    · simp only [bind_eq_ok, getString_eq_ok, Env.uid_eq_ok, pure_eq_ok, Prod.mk.injEq] at hc
      obtain ⟨_, -, u, hu, rfl, rfl⟩ := hc
      refine ⟨hset hk rfl rfl, fun e he => ⟨u, _, hu, List.mem_singleton.1 he⟩⟩
    · simp only [Except.ok.injEq, Prod.mk.injEq] at hc
      obtain ⟨rfl, rfl⟩ := hc
      exact ⟨hset hk rfl rfl, by simp⟩
  · simp only [Option.map_eq_some_iff, bind_eq_ok, pure_eq_ok, Prod.mk.injEq] at h
    obtain ⟨cell, hk, cell', hc, rfl, rfl⟩ := h
    refine ⟨?_, by simp⟩
    unfold PostTableViewCell.fillSaveButtonsReply at hc
    split at hc
    · simp only [bind_eq_ok, getArray_eq_ok, pure_eq_ok] at hc
      obtain ⟨_, -, rfl⟩ := hc
      exact hset hk rfl rfl
    · cases hc
      exact hset hk rfl rfl
  · cases h

end PostListing

/-! ## Actions -/

/-- The two collections that are moderated. -/
inductive Moderated : CollectionName → ScreenKind → Prop
  | posts : Moderated .posts .moderationPosts
  | comments : Moderated .comments .moderationComments

/-- The approval of document `id`. -/
def approveRequest (n : CollectionName) (id : String) : Request :=
  .updateData n id [("approved", .value (.bool true))]

/-- The ids a moderation screen lists. -/
def Screen.Lists : Screen → String → Prop
  | .moderationPosts s, id => ∃ x ∈ s.items, x.id = id
  | .moderationComments s, id => ∃ x ∈ s.items, x.commentID = id
  | _, _ => False

namespace Screen

/-- What a screen's handlers do on an action. -/
inductive Emits (env : Env) : Screen → Action → Effect → Prop
  | alert {scr a} (title message : String) : Emits env scr a (.createAlert title message)
  | table {scr a l e} (hl : scr.listing = some l) (he : l.Emits env a.byUser e) : Emits env scr a e
  | back {scr} (hk : scr.kind = .signUp ∨ scr.kind = .logIn) : Emits env scr .back .pop
  | signUpSegue : Emits env .initial .signUpButton (.segue .signUp)
  | logInSegue : Emits env .initial .logInButton (.segue .logIn)
  | createUser {s : SignUpViewController} {a} (email password nameText : String) :
      Emits env (.signUp s) a (.request (.createUser email password (.userCreated nameText)))
  | signIn {s : LogInViewController} {a} (email password : String) :
      Emits env (.logIn s) a (.request (.signIn email password .signedIn))
  | uploadTab {u p : Bool} : Emits env (.tabBar u p) .uploadTab (.segue .upload)
  | profileTab {u p : Bool} : Emits env (.tabBar u p) .profileTab (.segue .userProfile)
  | homePosts {s : HomeViewController} {a} (q : Query)
      (hq : .isEqualTo "approved" (.bool true) ∈ q.filters) :
      Emits env (.home s) a (.request (.getDocuments .posts q .homePosts))
  | menu {s : HomeViewController} (u : String) (hu : env.currentUser = some u) :
      Emits env (.home s) .tappedMenu (.request (.getDocument .users u .menu))
  | moderation {s : HomeViewController} (row : ℕ) (item : String)
      (hi : item ∈ s.leftMenu.menuListItems) (h : lowercased item = "moderation") :
      Emits env (.home s) (.didSelectMenuRow row) (.segue .moderation)
  | signOut {s : HomeViewController} (row : ℕ) :
      Emits env (.home s) (.didSelectMenuRow row) .signOut
  | presentInitial {s : HomeViewController} (row : ℕ) :
      Emits env (.home s) (.didSelectMenuRow row) .presentInitial
  | otherPosts {s : OtherProfileViewController} {a} (o : String) :
      Emits env (.otherProfile s) a
        (.request (.getDocuments .posts (OtherProfileViewController.approvedPostsBy o) .otherPosts))
  | savedUser {s : SavedViewController} (u : String) (hu : env.currentUser = some u) :
      Emits env (.saved s) .refresh (.request (.getDocument .users u .savedUser))
  | profilePosts {s : UserProfileViewController} {a} :
      Emits env (.userProfile s) a (.request
        (.getDocuments .posts (UserProfileViewController.postsBy s.listing.opID) .profilePosts))
  | avatarPut {s : UserProfileViewController} {a} (path : String) (image : UIImage) :
      Emits env (.userProfile s) a (.request (.putData path image .avatarPut))
  | edit {s : UserProfileViewController} (ups : List (String × FieldValue))
      (hups : ∀ k ∈ ups.map Prod.fst, k = "bio" ∨ k = "name" ∨ k = "avatarID") :
      Emits env (.userProfile s) .editTapped (.request (.updateData .users s.listing.opID ups))
  | savedSegue {s : UserProfileViewController} :
      Emits env (.userProfile s) .saveAndCancelTapped (.segue .saved)
  | uploadPut {s : UploadViewController} {a} (path : String) (image : UIImage) :
      Emits env (.upload s) a (.request (.putData path image .uploadPut))
  | uploadUser {s : UploadViewController} (u mediaID titleText descriptionText : String)
      (hu : env.currentUser = some u) :
      Emits env (.upload s) .uploadPressed (.request (.getDocument .users u
        (.uploadUser env.uuid u mediaID titleText descriptionText)))
  | commentUser {s : CommentsViewController} (u message : String) (hu : env.currentUser = some u) :
      Emits env (.comments s) .sendCommentPressed (.request (.getDocument .users u
        (.commentUser env.uuid u message)))
  | moderationPostsSegue :
      Emits env .moderation .moderationPostsButton (.segue .moderationPosts)
  | moderationCommentsSegue :
      Emits env .moderation .moderationCommentsButton (.segue .moderationComments)
  | pending {scr a n} (limit : ℕ) (hm : Moderated n scr.kind) :
      Emits env scr a (.request (.getDocuments n (pendingQuery limit) .pending))
  | approve {scr n} (row : ℕ) (id : String) (hm : Moderated n scr.kind) (hid : scr.Lists id) :
      Emits env scr (.approve row) (.request (approveRequest n id))
  | deny {scr n} (row : ℕ) (id : String) (hm : Moderated n scr.kind) (hid : scr.Lists id) :
      Emits env scr (.deny row) (.request (.delete n id (.denied row)))

variable {env : Env} {scr scr' : Screen} {es : List Effect}

theorem emits_home_loads (s : HomeViewController) (a : Action) :
    (∀ e ∈ HomeViewController.loadPosts, Emits env (.home s) a e) ∧
      ∀ c, ∀ e ∈ HomeViewController.loadSpecificPosts c, Emits env (.home s) a e := by
  refine ⟨?_, ?_⟩
  · intro e he
    rw [List.mem_singleton.1 he]
    exact .homePosts _ List.mem_cons_self
  · intro c e he
    rw [List.mem_singleton.1 he]
    exact .homePosts _ List.mem_cons_self

theorem refresh_emits (h : scr.refresh env = some (.ok (scr', es))) :
    scr' = scr ∧ Tidy es ∧ ∀ e ∈ es, Emits env scr .refresh e := by
  cases refresh_cases h with
  | home s h =>
    simp only [Except.ok.injEq, Prod.mk.injEq] at h
    obtain ⟨rfl, rfl⟩ := h
    refine ⟨rfl, ?_⟩
    unfold HomeViewController.reloadPosts
    split_ifs
    · exact ⟨.singleton (by simp), (emits_home_loads _ _).1⟩
    · exact ⟨.singleton (by simp), (emits_home_loads _ _).2 _⟩
  | otherProfile s h =>
    simp only [Except.ok.injEq, Prod.mk.injEq] at h
    obtain ⟨rfl, rfl⟩ := h
    refine ⟨rfl, .singleton (by simp), fun e he => ?_⟩
    rw [List.mem_singleton.1 he]
    exact .otherPosts _
  | saved s h =>
    simp only [SavedViewController.loadSavedPosts, lift_eq_ok, Prod.mk.injEq] at h
    obtain ⟨⟨_, es'⟩, h, rfl, rfl⟩ := h
    rcases hu : env.currentUser with _ | u
    · simp [Env.uid, hu, bind, Except.bind, Except.map] at h
    · simp only [Env.uid, hu, bind, Except.bind, pure, Except.pure, Except.map, Except.ok.injEq,
        Prod.mk.injEq] at h
      obtain ⟨-, rfl⟩ := h
      refine ⟨rfl, .singleton (by simp), fun e he => ?_⟩
      rw [List.mem_singleton.1 he]
      exact .savedUser u hu
  | userProfile s h =>
    simp only [Except.ok.injEq, Prod.mk.injEq] at h
    obtain ⟨rfl, rfl⟩ := h
    refine ⟨rfl, .singleton (by simp), fun e he => ?_⟩
    rw [List.mem_singleton.1 he]
    exact .profilePosts
  | moderationPosts s h =>
    simp only [Except.ok.injEq, Prod.mk.injEq] at h
    obtain ⟨rfl, rfl⟩ := h
    refine ⟨rfl, .singleton (by simp), fun e he => ?_⟩
    rw [List.mem_singleton.1 he]
    exact .pending _ .posts
  | moderationComments s h =>
    simp only [Except.ok.injEq, Prod.mk.injEq] at h
    obtain ⟨rfl, rfl⟩ := h
    refine ⟨rfl, .singleton (by simp), fun e he => ?_⟩
    rw [List.mem_singleton.1 he]
    exact .pending _ .comments

theorem signUpPressed_emits {s s' : SignUpViewController} {a : Action}
    (h : s.signUpPressed = .ok (s', es)) : Tidy es ∧ ∀ e ∈ es, Emits env (.signUp s) a e := by
  simp only [SignUpViewController.signUpPressed, bind_eq_ok] at h
  obtain ⟨error, -, h⟩ := h
  split at h <;> simp only [pure_eq_ok, Prod.mk.injEq] at h <;> obtain ⟨-, rfl⟩ := h
  · exact ⟨.nil, by simp⟩
  · refine ⟨.singleton (by simp), fun e he => ?_⟩
    rw [List.mem_singleton.1 he]
    exact .createUser _ _ _

theorem logInPressed_emits {s : LogInViewController} {a : Action} :
    Tidy s.logInPressed.2 ∧ ∀ e ∈ s.logInPressed.2, Emits env (.logIn s) a e := by
  unfold LogInViewController.logInPressed
  split
  · exact ⟨.nil, by simp⟩
  · refine ⟨.singleton (by simp), fun e he => ?_⟩
    rw [List.mem_singleton.1 he]
    exact .signIn _ _

theorem didSelectMenuItem_emits {s : HomeViewController} {item : String} (row : ℕ)
    (hi : item ∈ s.leftMenu.menuListItems) :
    Tidy (s.didSelectMenuItem env (lowercased item)).2 ∧
      ∀ e ∈ (s.didSelectMenuItem env (lowercased item)).2,
        Emits env (.home s) (.didSelectMenuRow row) e := by
  unfold HomeViewController.didSelectMenuItem
  split_ifs with h1
  · refine ⟨.singleton (by simp), fun e he => ?_⟩
    rw [List.mem_singleton.1 he]
    exact .moderation row item hi h1
  · dsimp only
    split
    · refine ⟨.logOut, fun e he => ?_⟩
      simp only [List.cons_append, List.nil_append, List.mem_cons, List.not_mem_nil, or_false] at he
      rcases he with rfl | rfl
      · exact .signOut row
      · exact .presentInitial row
    · refine ⟨.last (by simp [Effect.isQuiet]) (by simp), fun e he => ?_⟩
      simp only [List.cons_append, List.nil_append, List.mem_cons, List.not_mem_nil, or_false] at he
      rcases he with rfl | rfl
      · exact .alert _ _
      · exact .presentInitial row
  · exact ⟨.singleton (by simp), (emits_home_loads s _).1⟩
  · exact ⟨.singleton (by simp), (emits_home_loads s _).2 _⟩

theorem uploadPressed_emits {s s' : UploadViewController}
    (h : s.uploadPressed env = .ok (s', es)) :
    s' = s ∧ Tidy es ∧ ∀ e ∈ es, Emits env (.upload s) .uploadPressed e := by
  unfold UploadViewController.uploadPressed at h
  split at h
  · simp only [Except.ok.injEq, Prod.mk.injEq] at h
    obtain ⟨rfl, rfl⟩ := h
    exact ⟨rfl, .singleton (by simp), by simpa using .alert _ _⟩
  · simp only [bind_eq_ok, Env.uid_eq_ok, pure_eq_ok, Prod.mk.injEq] at h
    obtain ⟨u, hu, rfl, rfl⟩ := h
    refine ⟨rfl, .last (fun e he => ?_) (by simp), fun e he => ?_⟩
    · split_ifs at he
      · obtain ⟨image, -, -, rfl⟩ := UploadViewController.mem_uploadImage he
        rfl
      · cases he
    · rcases List.mem_append.1 he with he | he
      · split_ifs at he
        · obtain ⟨image, -, -, rfl⟩ := UploadViewController.mem_uploadImage he
          exact .uploadPut _ image
        · cases he
      · rw [List.mem_singleton.1 he]
        exact .uploadUser u _ _ _ hu

theorem sendCommentPressed_emits {s s' : CommentsViewController}
    (h : s.sendCommentPressed env = .ok (s', es)) :
    s' = s ∧ Tidy es ∧ ∀ e ∈ es, Emits env (.comments s) .sendCommentPressed e := by
  unfold CommentsViewController.sendCommentPressed at h
  simp only at h
  split_ifs at h
  · simp only [Except.ok.injEq, Prod.mk.injEq] at h
    obtain ⟨rfl, rfl⟩ := h
    exact ⟨rfl, .singleton (by simp), by simpa using .alert _ _⟩
  · simp only [bind_eq_ok, Env.uid_eq_ok, pure_eq_ok, Prod.mk.injEq] at h
    obtain ⟨u, hu, rfl, rfl⟩ := h
    refine ⟨rfl, .singleton (by simp), fun e he => ?_⟩
    rw [List.mem_singleton.1 he]
    exact .commentUser u _ hu

theorem textChanges_keys (s : UserProfileViewController) :
    ∀ k ∈ s.textChanges.map Prod.fst, k = "bio" ∨ k = "name" := by
  unfold UserProfileViewController.textChanges
  split_ifs <;> simp

/-- `editTapped` leaves the list of posts alone and updates the document of `opID`. -/
theorem editTapped_emits {s s' : UserProfileViewController}
    (h : s.editTapped env = .ok (s', es)) :
    s'.listing = s.listing ∧ Tidy es ∧ ∀ e ∈ es, Emits env (.userProfile s) .editTapped e := by
  have htext := textChanges_keys s
  unfold UserProfileViewController.editTapped at h
  split_ifs at h
  · unfold UserProfileViewController.commit at h
    simp only at h
    split at h
    · cases h
    · split_ifs at h <;> simp only [Except.ok.injEq, Prod.mk.injEq] at h <;> obtain ⟨rfl, rfl⟩ := h
      · refine ⟨rfl, .quiet (by simp [Effect.isQuiet]), fun e he => ?_⟩
        simp only [List.mem_cons, List.not_mem_nil, or_false] at he
        rcases he with rfl | rfl
        · exact .avatarPut _ _
        · refine .edit _ fun k hk => ?_
          simp only [List.map_append, List.mem_append, List.map_cons, List.map_nil,
            List.mem_singleton] at hk
          rcases hk with hk | rfl
          · rcases htext k hk with h | h <;> simp [h]
          · simp
      · exact ⟨rfl, .nil, by simp⟩
      · exact ⟨rfl, .nil, by simp⟩
      · refine ⟨rfl, .singleton (by simp), fun e he => ?_⟩
        rw [List.mem_singleton.1 he]
        exact .edit _ fun k hk => by rcases htext k hk with h | h <;> simp [h]
  · unfold UserProfileViewController.startEditing at h
    split at h
    · cases h
    · simp only [Except.ok.injEq, Prod.mk.injEq] at h
      obtain ⟨rfl, rfl⟩ := h
      exact ⟨rfl, .nil, by simp⟩

theorem saveAndCancelTapped_emits {s : UserProfileViewController} :
    s.saveAndCancelTapped.1.listing = s.listing ∧ Tidy s.saveAndCancelTapped.2 ∧
      ∀ e ∈ s.saveAndCancelTapped.2, Emits env (.userProfile s) .saveAndCancelTapped e := by
  unfold UserProfileViewController.saveAndCancelTapped
  split_ifs
  · exact ⟨rfl, .nil, by simp⟩
  · exact ⟨rfl, .singleton (by simp), by simpa using .savedSegue⟩

/-- What the two buttons of a row of a moderation screen do: the request is about the item of that
row, and the list loses nothing but that row. -/
theorem callBackOnApproveButton_spec {α : Type} {m : Queue α} {s s' : PendingList α} {row : ℕ}
    (h : m.callBackOnApproveButton s row = .ok (s', es)) :
    ∃ item, s.items[row]? = some item ∧ s'.items = s.items.eraseIdx row ∧
      es = [.request (approveRequest m.collection (m.id item))] := by
  simp only [Queue.callBackOnApproveButton, bind_eq_ok, trapping_eq_ok, pure_eq_ok,
    Prod.mk.injEq] at h
  obtain ⟨item, hi, s'', hs, rfl, rfl⟩ := h
  exact ⟨item, RowList.get_eq_ok.1 hi, RowList.items_removeAt hs, rfl⟩

theorem callBackOnDenyButton_spec {α : Type} {m : Queue α} {s s' : PendingList α} {row : ℕ}
    (h : m.callBackOnDenyButton s row = .ok (s', es)) :
    ∃ item, s.items[row]? = some item ∧ s' = s ∧
      es = [.request (.delete m.collection (m.id item) (.denied row))] := by
  simp only [Queue.callBackOnDenyButton, bind_eq_ok, trapping_eq_ok, pure_eq_ok, Prod.mk.injEq] at h
  obtain ⟨item, hi, rfl, rfl⟩ := h
  exact ⟨item, RowList.get_eq_ok.1 hi, rfl, rfl⟩

/-- **The call sites of the actions.** -/
theorem act_spec {a : Action} (h : scr.act env a = some (.ok (scr', es))) :
    scr'.kind = scr.kind ∧ Tidy es ∧ ∀ e ∈ es, Emits env scr a e := by
  replace h := act_cases h
  cases h
  case table h =>
    obtain ⟨l, l', hl, hact, rfl⟩ := tableAct_ok h
    obtain ⟨-, ht, he⟩ := PostListing.act_spec hact
    exact ⟨setListing_kind l', ht, fun e h => .table hl (he e h)⟩
  case didSelectRowAt h =>
    obtain ⟨l, l', hl, hsel, rfl⟩ := didSelectRowAt_ok h
    obtain ⟨-, ht, he⟩ := PostListing.didSelectRowAt_spec hsel
    exact ⟨setListing_kind l', ht, fun e h => .table hl (he e h)⟩
  case refresh h =>
    obtain ⟨rfl, he⟩ := refresh_emits h
    exact ⟨rfl, he⟩
  case type h =>
    simp only [Option.map_eq_some_iff, Except.ok.injEq, Prod.mk.injEq] at h
    obtain ⟨s', hs', rfl, rfl⟩ := h
    exact ⟨type_kind hs', .nil, by simp⟩
  case signUpBack h | logInBack h =>
    simp only [Except.ok.injEq, Prod.mk.injEq] at h
    obtain ⟨rfl, rfl⟩ := h
    refine ⟨rfl, .singleton (by simp), fun e he => ?_⟩
    rw [List.mem_singleton.1 he]
    exact .back (by simp [kind])
  case signUpPressed h =>
    simp only [lift_eq_ok, Prod.mk.injEq] at h
    obtain ⟨x, hx, rfl, rfl⟩ := h
    exact ⟨rfl, signUpPressed_emits hx⟩
  case logInPressed h =>
    simp only [lift_eq_ok, Except.ok.injEq, Prod.mk.injEq] at h
    obtain ⟨x, rfl, rfl, rfl⟩ := h
    exact ⟨rfl, logInPressed_emits⟩
  case tappedMenu h =>
    simp only [HomeViewController.tappedMenu, MenuListController.viewDidLoad,
      lift_eq_ok, Prod.mk.injEq] at h
    obtain ⟨x, hx, rfl, rfl⟩ := h
    split_ifs at hx
    · cases hx
      exact ⟨rfl, .nil, by simp⟩
    · simp only [bind_eq_ok, Env.uid_eq_ok, pure_eq_ok] at hx
      obtain ⟨_, ⟨u, hu, rfl⟩, rfl⟩ := hx
      refine ⟨rfl, .singleton (by simp), fun e he => ?_⟩
      rw [List.mem_singleton.1 he]
      exact .menu u hu
  case didSelectMenuRow row h =>
    simp only [HomeViewController.didSelectMenuRow, Option.map_map, Option.map_eq_some_iff,
      Function.comp_apply, lift_eq_ok, Except.ok.injEq, Prod.mk.injEq] at h
    obtain ⟨item, hi, x, rfl, rfl, rfl⟩ := h
    exact ⟨rfl, didSelectMenuItem_emits row (List.mem_of_getElem? hi)⟩
  case uploadPressed h =>
    simp only [lift_eq_ok, Prod.mk.injEq] at h
    obtain ⟨x, hx, rfl, rfl⟩ := h
    exact ⟨rfl, (uploadPressed_emits hx).2⟩
  case sendCommentPressed h =>
    simp only [lift_eq_ok, Prod.mk.injEq] at h
    obtain ⟨x, hx, rfl, rfl⟩ := h
    exact ⟨rfl, (sendCommentPressed_emits hx).2⟩
  case editTapped h =>
    simp only [lift_eq_ok, Prod.mk.injEq] at h
    obtain ⟨x, hx, rfl, rfl⟩ := h
    exact ⟨rfl, (editTapped_emits hx).2⟩
  case saveAndCancelTapped h =>
    simp only [lift_eq_ok, Except.ok.injEq, Prod.mk.injEq] at h
    obtain ⟨x, rfl, rfl, rfl⟩ := h
    exact ⟨rfl, saveAndCancelTapped_emits.2⟩
  case approvePost row hrow h | approveComment row hrow h =>
    simp only [lift_eq_ok, Prod.mk.injEq] at h
    obtain ⟨x, hx, rfl, rfl⟩ := h
    obtain ⟨item, hi, -, hes⟩ := callBackOnApproveButton_spec hx
    refine ⟨rfl, hes ▸ .singleton (by simp), fun e he => ?_⟩
    rw [hes, List.mem_singleton] at he
    rw [he]
    exact .approve row _ (by constructor) ⟨item, List.mem_of_getElem? hi, rfl⟩
  case denyPost row hrow h | denyComment row hrow h =>
    simp only [lift_eq_ok, Prod.mk.injEq] at h
    obtain ⟨x, hx, rfl, rfl⟩ := h
    obtain ⟨item, hi, -, hes⟩ := callBackOnDenyButton_spec hx
    refine ⟨rfl, hes ▸ .singleton (by simp), fun e he => ?_⟩
    rw [hes, List.mem_singleton] at he
    rw [he]
    exact .deny row _ (by constructor) ⟨item, List.mem_of_getElem? hi, rfl⟩
  case signUpButton h | logInButton h | uploadTab h | profileTab h | moderationPostsButton h |
      moderationCommentsButton h =>
    simp only [Except.ok.injEq, Prod.mk.injEq] at h
    obtain ⟨rfl, rfl⟩ := h
    refine ⟨rfl, .singleton (by simp), fun e he => ?_⟩
    rw [List.mem_singleton.1 he]
    first
      | exact .signUpSegue | exact .logInSegue | exact .uploadTab | exact .profileTab
      | exact .moderationPostsSegue | exact .moderationCommentsSegue
  -- the other handlers only change a field of their controller
  all_goals
    rename_i h
    simp only [Except.ok.injEq, Prod.mk.injEq] at h
    obtain ⟨rfl, rfl⟩ := h
    exact ⟨rfl, .nil, by simp⟩

/-- What an action leaves of the data a screen has read: a list of posts follows, the menu and the
comments stay, a moderation list loses items at most. -/
inductive Follows : Screen → Screen → Prop
  | home {s s' : HomeViewController} (hl : s.listing.Follows s'.listing)
      (hm : s'.leftMenu.menuListItems = s.leftMenu.menuListItems) : Follows (.home s) (.home s')
  | otherProfile {s s' : OtherProfileViewController} (hl : s.listing.Follows s'.listing) :
      Follows (.otherProfile s) (.otherProfile s')
  | saved {s s' : SavedViewController} (hl : s.listing.Follows s'.listing) :
      Follows (.saved s) (.saved s')
  | userProfile {s s' : UserProfileViewController} (hl : s.listing.Follows s'.listing) :
      Follows (.userProfile s) (.userProfile s')
  | comments {s s' : CommentsViewController} (hp : s'.postID = s.postID)
      (hc : s'.commentsToShow = s.commentsToShow) : Follows (.comments s) (.comments s')
  | moderationPosts {s s' : PendingList AEPost} (h : ∀ x ∈ s'.items, x ∈ s.items) :
      Follows (.moderationPosts s) (.moderationPosts s')
  | moderationComments {s s' : PendingList Comment} (h : ∀ x ∈ s'.items, x ∈ s.items) :
      Follows (.moderationComments s) (.moderationComments s')
  | signUp {s s' : SignUpViewController} : Follows (.signUp s) (.signUp s')
  | logIn {s s' : LogInViewController} : Follows (.logIn s) (.logIn s')
  | upload {s s' : UploadViewController} : Follows (.upload s) (.upload s')
  | tabBar {u p u' p' : Bool} : Follows (.tabBar u p) (.tabBar u' p')
  | initial : Follows .initial .initial
  | moderation : Follows .moderation .moderation

theorem Follows.refl (scr : Screen) : scr.Follows scr := by
  cases scr <;> constructor <;> first | exact .refl _ | exact fun _ h => h

theorem follows_setListing {l l' : PostListing} (hl : scr.listing = some l) (h : l.Follows l') :
    scr.Follows (scr.setListing l') := by
  cases scr <;> cases hl <;> constructor <;> first | exact h | rfl

theorem type_follows {text : String} {field : TextInput} (h : scr.type text field = some scr') :
    scr.Follows scr' := by
  unfold Screen.type at h
  split at h
  all_goals
    try split_ifs at h
    cases h
  all_goals constructor <;> exact .refl _

/-- **What an action leaves of a screen's data.** -/
theorem act_follows {a : Action} (h : scr.act env a = some (.ok (scr', es))) :
    scr.Follows scr' := by
  replace h := act_cases h
  cases h
  case table h =>
    obtain ⟨l, l', hl, hact, rfl⟩ := tableAct_ok h
    exact follows_setListing hl (PostListing.act_spec hact).1
  case didSelectRowAt h =>
    obtain ⟨l, l', hl, hsel, rfl⟩ := didSelectRowAt_ok h
    exact follows_setListing hl (@PostListing.didSelectRowAt_spec env _ _ _ _ hsel).1
  case refresh h =>
    obtain ⟨rfl, -⟩ := refresh_emits h
    exact .refl _
  case type h =>
    simp only [Option.map_eq_some_iff, Except.ok.injEq, Prod.mk.injEq] at h
    obtain ⟨s', hs', rfl, -⟩ := h
    exact type_follows hs'
  case tappedMenu h =>
    simp only [HomeViewController.tappedMenu, MenuListController.viewDidLoad,
      lift_eq_ok, Prod.mk.injEq] at h
    obtain ⟨x, hx, rfl, -⟩ := h
    split_ifs at hx
    · cases hx
      exact .refl _
    · simp only [bind_eq_ok, Env.uid_eq_ok, pure_eq_ok] at hx
      obtain ⟨_, ⟨u, hu, rfl⟩, rfl⟩ := hx
      exact .home (.refl _) rfl
  case didSelectMenuRow h =>
    simp only [HomeViewController.didSelectMenuRow, Option.map_map, Option.map_eq_some_iff,
      Function.comp_apply, lift_eq_ok, Except.ok.injEq, Prod.mk.injEq] at h
    obtain ⟨item, hi, x, rfl, rfl, -⟩ := h
    unfold HomeViewController.didSelectMenuItem
    split_ifs <;> exact .home (.refl _) rfl
  case sendCommentPressed h =>
    simp only [lift_eq_ok, Prod.mk.injEq] at h
    obtain ⟨x, hx, rfl, -⟩ := h
    rw [(@sendCommentPressed_emits env _ _ _ hx).1]
    exact .refl _
  case editTapped h =>
    simp only [lift_eq_ok, Prod.mk.injEq] at h
    obtain ⟨x, hx, rfl, -⟩ := h
    exact .userProfile (by rw [(editTapped_emits hx).1]; exact .refl _)
  case saveAndCancelTapped h =>
    simp only [lift_eq_ok, Except.ok.injEq, Prod.mk.injEq] at h
    obtain ⟨x, rfl, rfl, -⟩ := h
    exact .userProfile (by rw [(@saveAndCancelTapped_emits env _).1]; exact .refl _)
  case approvePost h | approveComment h =>
    simp only [lift_eq_ok, Prod.mk.injEq] at h
    obtain ⟨x, hx, rfl, -⟩ := h
    obtain ⟨item, -, hitems, -⟩ := callBackOnApproveButton_spec hx
    constructor
    rw [hitems]
    exact fun _ h => List.mem_of_mem_eraseIdx h
  case denyPost h | denyComment h =>
    simp only [lift_eq_ok, Prod.mk.injEq] at h
    obtain ⟨x, hx, rfl, -⟩ := h
    obtain ⟨item, -, hitems, -⟩ := callBackOnDenyButton_spec hx
    rw [hitems]
    exact .refl _
  -- the other handlers keep what the screen has read
  all_goals
    rename_i h
    simp only [lift_eq_ok, Except.ok.injEq, Prod.mk.injEq] at h
    first
      | (obtain ⟨rfl, -⟩ := h; constructor <;> exact .refl _)
      | (obtain ⟨x, -, rfl, -⟩ := h; constructor)

/-! ## Replies -/

/-- What a screen's closures do, besides alerts, when they are called with a reply. -/
inductive Answers (env : Env) : Screen → Callback → Reply → Effect → Prop
  | alert {scr k r} (title message : String) : Answers env scr k r (.createAlert title message)
  /-- `fillSaveButtons(currentUser:)`. -/
  | cell {scr k r} (u : String) (j : ℕ) (hu : env.currentUser = some u) (hl : scr.listing ≠ none) :
      Answers env scr k r (.request (.getDocument .users u (.cellSavedPosts j)))
  | savedPost {s : SavedViewController} {d : Document} (ids : List String) (id : String)
      (hd : d "savedPosts" = some (.array ids)) (hid : id ∈ ids) :
      Answers env (.saved s) .savedUser (.document (some d))
        (.request (.getDocument .posts id .savedPost))
  | uploadSet {s : UploadViewController} {d : Document}
      (postUUID opID mediaID titleText descriptionText opName : String) :
      Answers env (.upload s) (.uploadUser postUUID opID mediaID titleText descriptionText)
        (.document (some d))
        (.request (.setData .posts postUUID (postDocument postUUID opID opName
          s.picker.chosenCategories mediaID titleText descriptionText env.date) .uploadSet))
  | commentSet {s : CommentsViewController} {d : Document}
    (commentID opID message opName : String) :
      Answers env (.comments s) (.commentUser commentID opID message) (.document (some d))
        (.request (.setData .comments commentID
          (commentDocument commentID message opName opID s.postID env.date) .commentSet))
  | userSet {s : SignUpViewController} (nameText uid : String) :
      Answers env (.signUp s) (.userCreated nameText) (.auth (.ok uid))
        (.request (.setData .users uid (userDocument uid nameText) .userSet))
  | signedUp {s : SignUpViewController} (nameText : String) (r : Except String String) :
      Answers env (.signUp s) (.userCreated nameText) (.auth r) .goToHome
  | signedIn {s : LogInViewController} (uid : String) :
      Answers env (.logIn s) .signedIn (.auth (.ok uid)) .goToHome

/-- An effect list of alerts. -/
def OnlyAlerts (es : List Effect) : Prop :=
  ∀ e ∈ es, ∃ title message, e = .createAlert title message

theorem OnlyAlerts.answers {k : Callback} {r : Reply} (h : OnlyAlerts es) :
    Tidy es ∧ ∀ e ∈ es, Answers env scr k r e := by
  refine ⟨.quiet fun e he => ?_, fun e he => ?_⟩
  · obtain ⟨title, message, rfl⟩ := h e he
    rfl
  · obtain ⟨title, message, rfl⟩ := h e he
    exact .alert title message

theorem homePostsReply_alerts {s s' : HomeViewController} {r : Except String (List Document)}
    (h : s.loadPostsReply r = .ok (s', es)) : OnlyAlerts es := by
  unfold HomeViewController.loadPostsReply at h
  split at h
  · cases h
    simp [OnlyAlerts]
  · simp only [bind_eq_ok, pure_eq_ok, Prod.mk.injEq] at h
    obtain ⟨l, -, -, rfl⟩ := h
    split_ifs <;> simp [OnlyAlerts]

theorem menuReply_alerts {s s' : MenuListController} {d : Option Document}
    (h : s.viewDidLoadReply d = .ok (s', es)) : OnlyAlerts es := by
  unfold MenuListController.viewDidLoadReply at h
  split at h
  · simp only [bind_eq_ok, pure_eq_ok, Prod.mk.injEq] at h
    obtain ⟨_, -, -, rfl⟩ := h
    simp [OnlyAlerts]
  · cases h
    simp [OnlyAlerts]

theorem otherReplies_alerts {s s' : OtherProfileViewController} :
    (∀ d, s.loadInfoReply d = .ok (s', es) → OnlyAlerts es) ∧
      ∀ r, s.loadPostsReply r = .ok (s', es) → OnlyAlerts es := by
  refine ⟨fun d h => ?_, fun r h => ?_⟩
  · unfold OtherProfileViewController.loadInfoReply at h
    split at h
    · simp only [bind_eq_ok, pure_eq_ok, Prod.mk.injEq] at h
      obtain ⟨_, -, _, -, _, -, -, rfl⟩ := h
      simp [OnlyAlerts]
    · cases h
      simp [OnlyAlerts]
  · unfold OtherProfileViewController.loadPostsReply at h
    split at h
    · cases h
      simp [OnlyAlerts]
    · simp only [bind_eq_ok, pure_eq_ok, Prod.mk.injEq] at h
      obtain ⟨_, -, -, rfl⟩ := h
      simp [OnlyAlerts]

theorem profileReplies_alerts {s s' : UserProfileViewController} :
    (∀ d, s.loadInfoReply d = .ok (s', es) → OnlyAlerts es) ∧
      ∀ r, s.loadPostsReply r = .ok (s', es) → OnlyAlerts es := by
  refine ⟨fun d h => ?_, fun r h => ?_⟩
  · unfold UserProfileViewController.loadInfoReply at h
    split at h
    · simp only [bind_eq_ok, pure_eq_ok, Prod.mk.injEq] at h
      obtain ⟨_, -, _, -, _, -, -, rfl⟩ := h
      simp [OnlyAlerts]
    · cases h
      simp [OnlyAlerts]
  · unfold UserProfileViewController.loadPostsReply at h
    split at h
    · cases h
      simp [OnlyAlerts]
    · simp only [bind_eq_ok, pure_eq_ok, Prod.mk.injEq] at h
      obtain ⟨_, -, -, rfl⟩ := h
      simp [OnlyAlerts]

theorem savedPostReply_alerts {s s' : SavedViewController} {d : Option Document}
    (h : s.savedPostReply d = .ok (s', es)) : OnlyAlerts es := by
  unfold SavedViewController.savedPostReply at h
  split at h
  · simp only [bind_eq_ok, pure_eq_ok, Prod.mk.injEq] at h
    obtain ⟨_, -, -, rfl⟩ := h
    simp [OnlyAlerts]
  · cases h
    simp [OnlyAlerts]

theorem commentsReply_alerts {s s' : CommentsViewController} {r : Except String (List Document)}
    (h : s.loadCommentsReply r = .ok (s', es)) : OnlyAlerts es := by
  unfold CommentsViewController.loadCommentsReply at h
  split at h
  · cases h
    simp [OnlyAlerts]
  · simp only [bind_eq_ok, pure_eq_ok, Prod.mk.injEq] at h
    obtain ⟨_, -, _, -, -, rfl⟩ := h
    simp [OnlyAlerts]

theorem pendingReplies_alerts {α : Type} {m : Queue α} {s s' : PendingList α} :
    (∀ r, m.loadPendingReply s r = .ok (s', es) → OnlyAlerts es) ∧
      ∀ row e, m.denyReply s row e = .ok (s', es) → OnlyAlerts es := by
  refine ⟨fun r h => ?_, fun row e h => ?_⟩
  · unfold Queue.loadPendingReply at h
    split at h
    · cases h
      simp [OnlyAlerts]
    · simp only [bind_eq_ok, pure_eq_ok, Prod.mk.injEq] at h
      obtain ⟨_, -, _, -, -, rfl⟩ := h
      split_ifs <;> simp [OnlyAlerts]
  · unfold Queue.denyReply at h
    split at h
    · cases h
      simp [OnlyAlerts]
    · simp only [bind_eq_ok, pure_eq_ok, Prod.mk.injEq] at h
      obtain ⟨_, -, -, rfl⟩ := h
      simp [OnlyAlerts]

/-- **The call sites of the closures.** -/
theorem receive_answers {k : Callback} {r : Reply}
    (h : scr.receive env k r = some (.ok (scr', es))) :
    Tidy es ∧ ∀ e ∈ es, Answers env scr k r e := by
  replace h := receive_cases h
  cases h
  case table h =>
    obtain ⟨l, l', hl, hr, -⟩ := tableReceive_ok h
    have hes := (PostListing.receive_spec hr).2
    refine ⟨.quiet fun e he => ?_, fun e he => ?_⟩
    · obtain ⟨u, j, -, rfl⟩ := hes e he
      rfl
    · obtain ⟨u, j, hu, rfl⟩ := hes e he
      exact .cell u j hu (by simp [hl])
  all_goals
    rename_i h
    simp only [lift_eq_ok, Except.ok.injEq, Prod.mk.injEq] at h
    obtain ⟨⟨s', es'⟩, hx, -, rfl⟩ := h
  case homePosts => exact (homePostsReply_alerts hx).answers
  case menu => exact (menuReply_alerts hx).answers
  case otherInfo => exact (otherReplies_alerts.1 _ hx).answers
  case otherPosts => exact (otherReplies_alerts.2 _ hx).answers
  case savedUser =>
    unfold SavedViewController.savedUserReply at hx
    split at hx
    · simp only [bind_eq_ok, getArray_eq_ok, pure_eq_ok, Prod.mk.injEq] at hx
      obtain ⟨ids, hd, -, rfl⟩ := hx
      refine ⟨.quiet (by simp [Effect.isQuiet]), fun e he => ?_⟩
      obtain ⟨id, hid, rfl⟩ := List.mem_map.1 he
      exact .savedPost ids id hd hid
    · cases hx
      exact OnlyAlerts.answers (by simp [OnlyAlerts])
  case savedPost => exact (savedPostReply_alerts hx).answers
  case profilePosts => exact (profileReplies_alerts.2 _ hx).answers
  case profileInfo => exact (profileReplies_alerts.1 _ hx).answers
  case avatarPut =>
    unfold UserProfileViewController.avatarPutReply at hx
    split at hx <;> cases hx <;> exact OnlyAlerts.answers (by simp [OnlyAlerts])
  case uploadUser =>
    unfold UploadViewController.userReply at hx
    split at hx
    · simp only [bind_eq_ok, pure_eq_ok, Prod.mk.injEq] at hx
      obtain ⟨opName, -, rfl, rfl⟩ := hx
      refine ⟨.singleton (by simp), fun e he => ?_⟩
      rw [List.mem_singleton.1 he]
      exact .uploadSet ..
    · cases hx
      exact OnlyAlerts.answers (by simp [OnlyAlerts])
  case uploadSet =>
    unfold UploadViewController.setReply at hx
    split at hx <;> cases hx <;> exact OnlyAlerts.answers (by simp [OnlyAlerts])
  case uploadPut =>
    unfold UploadViewController.putReply at hx
    split at hx <;> cases hx <;> exact OnlyAlerts.answers (by simp [OnlyAlerts])
  case comments => exact (commentsReply_alerts hx).answers
  case commentUser =>
    unfold CommentsViewController.userReply at hx
    split at hx
    · simp only [bind_eq_ok, pure_eq_ok, Prod.mk.injEq] at hx
      obtain ⟨opName, -, rfl, rfl⟩ := hx
      refine ⟨.singleton (by simp), fun e he => ?_⟩
      rw [List.mem_singleton.1 he]
      exact .commentSet ..
    · cases hx
      exact OnlyAlerts.answers (by simp [OnlyAlerts])
  case commentSet =>
    unfold CommentsViewController.setReply at hx
    split at hx <;> cases hx <;> exact OnlyAlerts.answers (by simp [OnlyAlerts])
  case pendingPosts | pendingComments => exact (pendingReplies_alerts.1 _ hx).answers
  case deniedPost | deniedComment => exact (pendingReplies_alerts.2 _ _ hx).answers
  case userCreated nameText r =>
    cases r with
    | error err =>
      cases hx
      refine ⟨.singleton (by simp), fun e he => ?_⟩
      rw [List.mem_singleton.1 he]
      exact .signedUp nameText _
    | ok uid =>
      cases hx
      refine ⟨@Tidy.last [_] _ (by simp [Effect.isQuiet]) (by simp), fun e he => ?_⟩
      simp only [List.mem_cons, List.not_mem_nil, or_false] at he
      rcases he with rfl | rfl
      · exact .userSet nameText uid
      · exact .signedUp nameText _
  case userSet =>
    unfold SignUpViewController.setReply at hx
    split at hx <;> cases hx <;> exact OnlyAlerts.answers (by simp [OnlyAlerts])
  case signedIn r =>
    cases r with
    | error err =>
      cases hx
      exact OnlyAlerts.answers (by simp [OnlyAlerts])
    | ok uid =>
      cases hx
      refine ⟨.singleton (by simp), fun e he => ?_⟩
      rw [List.mem_singleton.1 he]
      exact .signedIn uid

end Screen

end ArtsExplorer
