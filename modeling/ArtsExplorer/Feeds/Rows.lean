import ArtsExplorer.App.Decoding
import ArtsExplorer.App.CurrentUser
import ArtsExplorer.Foundations.Machine
import Mathlib.Data.List.Forall2

/-!
# Rows and the posts they display

`postRows` is one of the four screens with a list of posts (Home, Saved, OtherProfile, UserProfile),
from `viewDidLoad()` on: anything may be done on it, and a reply of any kind may come at any time,
so also every reply to a call it has made, in any order. With every cell of its table goes the post
that the cell was configured with last.

The handlers work on an array, the table on rows that the closures have captured. They agree in
every reachable state: a displayed cell was configured with the element of `postsToShow` at its row
(`PostListing.RowsOK`). So every `insertRows(at:)` passes the check of the batch update, and a tap
on a row acts on the post that the row displays (`taps_follow_rows`).
-/

namespace ArtsExplorer

open Foundations

/-! ## Handlers that do not trap -/

/-- The handler goes through with a result that meets `P`, or ends the process otherwise than by a
trap. -/
def Safe {α : Type} (P : α → Prop) (x : Except Fault α) : Prop :=
  (∀ a, x = .ok a → P a) ∧ ∀ t, x ≠ .error (.trap t)

namespace Safe

variable {α β : Type} {P : α → Prop} {Q : β → Prop} {x : Except Fault α}

theorem ok {a : α} (h : P a) : Safe P (.ok a) :=
  ⟨fun _ ha => by cases ha; exact h, fun _ he => by cases he⟩

theorem pure {a : α} (h : P a) : Safe P (Pure.pure a) := .ok h

theorem bind {g : α → Except Fault β} (hx : Safe P x) (hg : ∀ a, P a → Safe Q (g a)) :
    Safe Q (x >>= g) := by
  constructor
  · intro b hb
    obtain ⟨a, ha, hb⟩ := bind_eq_ok.1 hb
    exact (hg a (hx.1 a ha)).1 b hb
  · intro t ht
    rcases bind_eq_error.1 ht with ht | ⟨a, ha, ht⟩
    · exact hx.2 t ht
    · exact (hg a (hx.1 a ha)).2 t ht

theorem mono (hx : Safe P x) {P' : α → Prop} (h : ∀ a, P a → P' a) : Safe P' x :=
  ⟨fun a ha => h a (hx.1 a ha), hx.2⟩

theorem uid (env : Env) : Safe (fun _ => True) env.uid := by
  refine ⟨fun _ _ => trivial, fun t ht => ?_⟩
  cases (Env.uid_eq_error.1 ht).2

theorem map {f : α → β} (h : Safe (fun a => Q (f a)) x) : Safe Q (x.map f) := by
  cases x with
  | ok a => exact .ok (h.1 a rfl)
  | error e =>
    refine ⟨fun _ hb => (by cases hb), fun t ht => h.2 t ?_⟩
    cases ht
    rfl

theorem lift {σ : Type} {f : σ → Screen} {r : Except Fault (After σ)} {P : Screen → Prop}
    (h : Safe (fun a => P (f a.1)) r) : Safe (fun a => P a.1) (lift f r) :=
  map (Q := fun a : After Screen => P a.1) h

theorem casts (h : Casts x) : Safe (fun _ => True) x := by
  refine ⟨fun _ _ => trivial, fun t ht => ?_⟩
  obtain ⟨k, hk⟩ := h _ ht
  cases hk

theorem decodeAll {decode : Document → Except Fault α} (h : ∀ d, Casts (decode d))
    (ds : List Document) : Safe (fun _ => True) (decodeAll decode ds) := by
  refine ⟨fun _ _ => trivial, fun t ht => ?_⟩
  obtain ⟨d, -, hd⟩ := decodeAll_error ht
  exact (casts (h d)).2 t hd

end Safe

/-! ## Lists in step -/

section InStep

variable {α β : Type} {R : α → β → Prop} {xs : List α} {ys : List β} {k : ℕ} {x x' : α} {y : β}

theorem forall₂_getElem? (h : List.Forall₂ R xs ys) (hx : xs[k]? = some x) :
    ∃ y, ys[k]? = some y ∧ R x y := by
  induction h generalizing k with
  | nil => cases hx
  | @cons a b xs ys hab _ ih =>
    cases k with
    | zero =>
      cases hx
      exact ⟨b, rfl, hab⟩
    | succ k => exact ih hx

theorem forall₂_set (h : List.Forall₂ R xs ys) (hxy : R x y) :
    List.Forall₂ R (xs.set k x) (ys.set k y) := by
  induction h generalizing k with
  | nil => exact .nil
  | cons hab htail ih =>
    cases k with
    | zero => exact .cons hxy htail
    | succ k => exact .cons hab ih

theorem forall₂_set_left (h : List.Forall₂ R xs ys) (hx : xs[k]? = some x)
    (hxy : ∀ y, R x y → R x' y) : List.Forall₂ R (xs.set k x') ys := by
  induction h generalizing k with
  | nil => cases hx
  | cons hab htail ih =>
    cases k with
    | zero =>
      cases hx
      exact .cons (hxy _ hab) htail
    | succ k => exact .cons hab (ih hx)

end InStep

/-! ## Rows -/

/-- A cell that was configured with the post; where it is displayed, the post is the one at its row,
and its closure has captured the row. -/
structure CellOK (items : List AEPost) (cell : PostTableViewCell) (post : AEPost) : Prop where
  postID : cell.postID = post.id
  opName : cell.userTopLabel = post.opName
  row : ∀ row, cell.row = some row →
    cell.callBackOnCommentButton = some row ∧ items[row]? = some post

namespace CellOK

variable {items : List AEPost} {cell cell' : PostTableViewCell} {post : AEPost}

/-- A change of anything else in the cell. -/
theorem frame (h : CellOK items cell post) (hid : cell'.postID = cell.postID)
    (hname : cell'.userTopLabel = cell.userTopLabel) (hrow : cell'.row = cell.row)
    (hback : cell'.callBackOnCommentButton = cell.callBackOnCommentButton) :
    CellOK items cell' post :=
  ⟨hid.trans h.postID, hname.trans h.opName, fun row hr => hback ▸ h.row row (hrow ▸ hr)⟩

/-- The cell goes back to the reuse pool. -/
theorem endDisplaying (h : CellOK items cell post) (items' : List AEPost) :
    CellOK items' { cell with row := none } post :=
  ⟨h.postID, h.opName, fun _ hr => by cases hr⟩

/-- Posts are added at the end. -/
theorem append (h : CellOK items cell post) (more : List AEPost) :
    CellOK (items ++ more) cell post := by
  refine ⟨h.postID, h.opName, fun row hr => ⟨(h.row row hr).1, ?_⟩⟩
  have hi := (h.row row hr).2
  rwa [List.getElem?_append_left (List.getElem?_eq_some_iff.1 hi).1]

end CellOK

namespace PostListing

variable {env : Env} {l l' : PostListing} {posts : List AEPost}

/-- The table has a row for every post, and the cells were configured with `posts`. -/
structure RowsOK (l : PostListing) (posts : List AEPost) : Prop where
  aligned : l.postsToShow.Aligned
  cells : List.Forall₂ (CellOK l.postsToShow.items) l.cells posts

/-- The posts that the cells were configured with last, after a step of the table. -/
def configured (l : PostListing) (posts : List AEPost) : TableAction → List AEPost
  | .cellForRowAt row reuse =>
    match l.postsToShow.items[row]?, reuse with
    | some post, none => posts ++ [post]
    | some post, some k => posts.set k post
    | none, _ => posts
  | _ => posts

/-- Only the table changes. -/
theorem RowsOK.congr (h : l.RowsOK posts) (hposts : l'.postsToShow = l.postsToShow)
    (hcells : l'.cells = l.cells) : l'.RowsOK posts :=
  ⟨hposts ▸ h.aligned, hposts ▸ hcells ▸ h.cells⟩

theorem RowsOK.removeAll (h : l.RowsOK posts) : l.removeAll.RowsOK posts :=
  ⟨rfl, List.forall₂_map_left_iff.2 (h.cells.imp fun _ _ hc => hc.endDisplaying _)⟩

/-- **The loop over the documents of an answer**: every row is inserted into a table with a row for
every post before it. -/
theorem RowsOK.showAll (h : l.RowsOK posts) (ds : List Document) :
    Safe (fun l' => l'.RowsOK posts) (l.showAll ds) := by
  refine .bind (.decodeAll AEPost.casts_ofDocument ds) fun more _ => ?_
  obtain ⟨postsToShow, happend, hitems, haligned⟩ := RowList.appendAll_of_aligned h.aligned more
  rw [happend]
  refine .ok ⟨haligned, ?_⟩
  rw [hitems]
  exact h.cells.imp fun _ _ hc => hc.append more

/-- A change of cell `k` that leaves what it shows and where. -/
theorem RowsOK.setCell (h : l.RowsOK posts) {k : ℕ} {cell cell' : PostTableViewCell}
    (hk : l.cells[k]? = some cell)
    (hc : ∀ post, CellOK l.postsToShow.items cell post → CellOK l.postsToShow.items cell' post) :
    RowsOK { l with cells := l.cells.set k cell' } posts :=
  ⟨h.aligned, forall₂_set_left h.cells hk hc⟩

/-- A cell that has just been configured with the post of its row. -/
theorem cellOK_configure {items : List AEPost} {post : AEPost} {row k : ℕ}
    {cell : PostTableViewCell} (hpost : items[row]? = some post) :
    CellOK items { (cell.configure k post).1 with
      callBackOnCommentButton := some row, row := some row } post :=
  ⟨rfl, rfl, fun _ hr => by cases hr; exact ⟨rfl, hpost⟩⟩

theorem RowsOK.get (h : l.RowsOK posts) {row : ℕ} (hrow : row < l.postsToShow.rowCount) :
    ∃ post, l.postsToShow.items[row]? = some post := by
  rw [h.aligned] at hrow
  exact ⟨_, List.getElem?_eq_getElem hrow⟩

theorem RowsOK.cellForRowAt (h : l.RowsOK posts) {row : ℕ} {reuse : Option ℕ}
    (hrow : row < l.postsToShow.rowCount) :
    Safe (fun x => x.1.RowsOK (l.configured posts (.cellForRowAt row reuse)))
      (l.cellForRowAt env row reuse) := by
  obtain ⟨post, hpost⟩ := h.get hrow
  unfold PostListing.cellForRowAt
  cases reuse with
  | none =>
    simp only [dequeue, RowList.get_eq_ok.2 hpost, configured, hpost]
    refine .ok ⟨h.aligned, ?_⟩
    rw [List.set_append_right _ _ le_rfl, Nat.sub_self]
    exact List.rel_append h.cells (.cons (cellOK_configure hpost) .nil)
  | some k =>
    simp only [dequeue, PostTableViewCell.prepareForReuse, configured, hpost]
    refine .bind (P := fun x => x.1 = l.cells ∧ x.2.1 = k) ?_ ?_
    · exact .bind (P := fun _ => True) (.bind (.uid env) fun _ _ => .pure trivial)
        fun _ _ => .pure ⟨rfl, rfl⟩
    · rintro ⟨_, _, reused⟩ ⟨rfl, rfl⟩
      rw [RowList.get_eq_ok.2 hpost]
      exact .ok ⟨h.aligned, forall₂_set h.cells (cellOK_configure hpost)⟩

/-- **A step of the table** keeps the rows in order. -/
theorem RowsOK.act (h : l.RowsOK posts) {a : TableAction} {r : Except Fault (After PostListing)}
    (hr : l.act env a = some r) : Safe (fun x => x.1.RowsOK (l.configured posts a)) r := by
  cases a with
  | cellForRowAt row reuse =>
    simp only [PostListing.act, Option.ite_none_right_eq_some, Option.some.injEq] at hr
    obtain ⟨⟨hrow, -⟩, rfl⟩ := hr
    exact h.cellForRowAt hrow
  | didEndDisplaying k =>
    obtain ⟨cell, hk, rfl⟩ := Option.map_eq_some_iff.1 hr
    exact .ok (h.setCell hk fun _ hc => hc.endDisplaying _)
  | imageLoaded k ofPost found =>
    obtain ⟨cell, hk, rfl⟩ := Option.map_eq_some_iff.1 hr
    refine .ok (h.setCell hk fun _ hc => ?_)
    unfold finishLoad
    split_ifs <;> exact hc.frame rfl rfl rfl rfl
  | pressedSaveButton k =>
    simp only [PostListing.act] at hr
    split at hr
    swap
    · cases hr
    next cell hk =>
    split_ifs at hr
    cases hr
    refine .bind (P := fun x => ∀ post, CellOK l.postsToShow.items cell post →
      CellOK l.postsToShow.items x.1 post) ?_ fun x hx => .pure (h.setCell hk hx)
    refine .bind (.uid env) fun _ _ => ?_
    split_ifs <;> exact .pure fun _ hc => hc.frame rfl rfl rfl rfl
  | pressedViewComments k =>
    simp only [PostListing.act] at hr
    split at hr
    swap
    · cases hr
    next cell hk =>
    split_ifs at hr with hdisplayed
    obtain ⟨row, hrow⟩ := Option.ne_none_iff_exists'.1 hdisplayed
    obtain ⟨post, -, hc⟩ := forall₂_getElem? h.cells hk
    obtain ⟨hback, hpost⟩ := hc.row row hrow
    rw [hback] at hr
    cases hr
    simp only [callBackOnCommentButton, prepareInfo, RowList.get_eq_ok.2 hpost]
    exact .ok (h.congr rfl rfl)

/-- **A reply to a cell** keeps the rows in order. -/
theorem RowsOK.receive (h : l.RowsOK posts) {k : Callback} {reply : Reply}
    {r : Except Fault (After PostListing)} (hr : l.receive env k reply = some r) :
    Safe (fun x => x.1.RowsOK posts) r := by
  unfold PostListing.receive at hr
  split at hr
  · obtain ⟨cell, hk, rfl⟩ := Option.map_eq_some_iff.1 hr
    refine .bind (P := fun x => ∀ post, CellOK l.postsToShow.items cell post →
      CellOK l.postsToShow.items x.1 post) ?_ fun x hx => .pure (h.setCell hk hx)
    unfold PostTableViewCell.configureReply
    split
    · exact .bind (.casts (casts_getString _ _)) fun _ _ => .bind (.uid env) fun _ _ =>
        .pure fun _ hc => hc.frame rfl rfl rfl rfl
    · exact .ok fun _ hc => hc.frame rfl rfl rfl rfl
  · obtain ⟨cell, hk, rfl⟩ := Option.map_eq_some_iff.1 hr
    refine .bind (P := fun x => ∀ post, CellOK l.postsToShow.items cell post →
      CellOK l.postsToShow.items x post) ?_ fun x hx => .pure (h.setCell hk hx)
    unfold PostTableViewCell.fillSaveButtonsReply
    split
    · exact .bind (.casts (casts_getArray _ _)) fun _ _ =>
        .pure fun _ hc => hc.frame rfl rfl rfl rfl
    · exact .ok fun _ hc => hc
  · cases hr

/-- The selection of a row. -/
theorem RowsOK.didSelectRowAt (h : l.RowsOK posts) {row : ℕ}
    (hrow : row < l.postsToShow.rowCount) :
    Safe (fun x => x.1.RowsOK posts) (l.didSelectRowAt row) := by
  obtain ⟨post, hpost⟩ := h.get hrow
  simp only [PostListing.didSelectRowAt, prepareInfo, RowList.get_eq_ok.2 hpost]
  exact .ok (h.congr rfl rfl)

end PostListing

namespace Screen

variable {env : Env} {scr : Screen} {posts : List AEPost} {r : Except Fault (After Screen)}

/-- A screen with a list of posts whose rows are in order. -/
def RowsOK (scr : Screen) (posts : List AEPost) : Prop :=
  ∃ l, scr.listing = some l ∧ l.RowsOK posts

/-- The posts that the cells were configured with last, after an action. -/
def configured (scr : Screen) (posts : List AEPost) : Action → List AEPost
  | .table a => (scr.listing.map fun l => l.configured posts a).getD posts
  | _ => posts

/-- A handler whose screen goes on with the list that it returns. -/
theorem safe_setListing {l : PostListing} {x : Except Fault (After PostListing)}
    (hl : scr.listing = some l) (h : Safe (fun a => a.1.RowsOK posts) x) :
    Safe (fun a => a.1.RowsOK posts) (lift (fun l' => scr.setListing l') x) := by
  refine .lift (P := fun scr' => scr'.RowsOK posts) (h.mono fun a ha => ⟨a.1, ?_, ha⟩)
  cases scr <;> cases hl <;> rfl

theorem RowsOK.didSelectRowAt (h : scr.RowsOK posts) {row : ℕ}
    (hr : scr.didSelectRowAt row = some r) : Safe (fun a => a.1.RowsOK posts) r := by
  obtain ⟨l, hl, hrows⟩ := h
  cases scr <;> cases hl <;> simp only [Screen.didSelectRowAt, reduceCtorEq] at hr
  all_goals
    simp only [Option.ite_none_right_eq_some, Option.some.injEq] at hr
    obtain ⟨hrow, rfl⟩ := hr
  · exact @safe_setListing (.home _) _ _ _ rfl (hrows.didSelectRowAt hrow)
  · exact @safe_setListing (.saved _) _ _ _ rfl (hrows.didSelectRowAt hrow)

theorem RowsOK.congr (h : scr.RowsOK posts) {scr' : Screen} (hl : scr'.listing = scr.listing) :
    scr'.RowsOK posts :=
  h.imp fun _ hx => ⟨hl.trans hx.1, hx.2⟩

theorem RowsOK.refresh (h : scr.RowsOK posts) (hr : scr.refresh env = some r) :
    Safe (fun x => x.1.RowsOK posts) r := by
  obtain ⟨l, hl, hrows⟩ := h
  cases scr <;> cases hl <;> cases hr
  case saved s =>
    refine .lift (P := fun scr' => scr'.RowsOK posts) (.map ?_)
    exact .bind (.uid env) fun _ _ => .pure ⟨s.listing, rfl, hrows⟩
  all_goals exact .ok ⟨_, rfl, hrows⟩

theorem type_listing {scr' : Screen} {text : String} {field : TextInput}
    (h : scr.type text field = some scr') : scr'.listing = scr.listing := by
  unfold Screen.type at h
  split at h
  all_goals
    try split_ifs at h
    cases h
  all_goals rfl

theorem safe_editTapped {s : UserProfileViewController} :
    Safe (fun x => x.1.listing = s.listing) (s.editTapped env) := by
  refine ⟨fun x hx => (editTapped_emits hx).1, fun t ht => ?_⟩
  unfold UserProfileViewController.editTapped at ht
  split_ifs at ht
  · simp only [UserProfileViewController.commit] at ht
    split at ht
    · cases ht
    · split_ifs at ht
  · simp only [UserProfileViewController.startEditing] at ht
    split at ht <;> cases ht

/-- **An action** keeps the rows in order. -/
theorem RowsOK.act (h : scr.RowsOK posts) {a : Action} (hr : scr.act env a = some r) :
    Safe (fun x => x.1.RowsOK (scr.configured posts a)) r := by
  have hrows := h
  obtain ⟨l, hl, hlist⟩ := h
  replace hr := act_cases hr
  cases hr
  case table hr =>
    rw [tableAct_eq, hl, Option.bind_some, Option.map_eq_some_iff] at hr
    obtain ⟨x, hx, rfl⟩ := hr
    simp only [configured, hl, Option.map_some, Option.getD_some]
    exact safe_setListing hl (hlist.act hx)
  case didSelectRowAt hr => exact hrows.didSelectRowAt hr
  case refresh hr => exact hrows.refresh hr
  case type hr =>
    obtain ⟨scr', hscr', rfl⟩ := Option.map_eq_some_iff.1 hr
    exact .ok (hrows.congr (type_listing hscr'))
  case tappedMenu hr =>
    cases hr
    refine .lift (P := fun scr' => scr'.RowsOK posts) ?_
    unfold HomeViewController.tappedMenu MenuListController.viewDidLoad
    split_ifs
    · exact .ok hrows
    · exact .bind (P := fun _ => True) (.bind (.uid env) fun _ _ => .pure trivial)
        fun _ _ => .pure (hrows.congr rfl)
  case didSelectMenuRow hr =>
    obtain ⟨x, hx, rfl⟩ := Option.map_eq_some_iff.1 hr
    refine .lift (P := fun scr' => scr'.RowsOK posts) (.ok ?_)
    obtain ⟨item, -, rfl⟩ := Option.map_eq_some_iff.1 hx
    unfold HomeViewController.didSelectMenuItem
    split_ifs <;> exact hrows.congr rfl
  case editTapped hr =>
    cases hr
    refine .lift (P := fun scr' => scr'.RowsOK posts) (safe_editTapped.mono fun x hx => ?_)
    exact hrows.congr (congrArg some hx)
  case saveAndCancelTapped s hr =>
    cases hr
    refine .lift (P := fun scr' => scr'.RowsOK posts) (.ok ?_)
    exact hrows.congr (congrArg some (@saveAndCancelTapped_emits env s).1)
  case avatarPicked hr | ownPictureLoaded hr | otherPictureLoaded hr =>
    cases hr
    exact .ok (hrows.congr rfl)
  -- the other screens have no list of posts
  all_goals cases hl

/-- **A reply** keeps the rows in order, of whatever kind it is. -/
theorem RowsOK.receive (h : scr.RowsOK posts) {k : Callback} {reply : Reply}
    (hr : scr.receive env k reply = some r) : Safe (fun x => x.1.RowsOK posts) r := by
  have hrows := h
  obtain ⟨l, hl, hlist⟩ := h
  replace hr := receive_cases hr
  cases hr
  case homePosts reply hr =>
    cases hr
    cases hl
    refine .lift (P := fun scr' => scr'.RowsOK posts) ?_
    cases reply with
    | error err => exact .ok hrows
    | ok ds => exact .bind (hlist.removeAll.showAll ds) fun l' hl' => .pure ⟨l', rfl, hl'⟩
  case menu d hr =>
    cases hr
    refine .lift (P := fun scr' => scr'.RowsOK posts) ?_
    cases d with
    | none => exact .ok hrows
    | some d => exact .bind (.casts (casts_getBool d _)) fun _ _ => .pure (hrows.congr rfl)
  case otherInfo d hr | profileInfo d hr =>
    cases hr
    refine .lift (P := fun scr' => scr'.RowsOK posts) ?_
    cases d with
    | none => exact .ok hrows
    | some d =>
      exact .bind (.casts (casts_getString d _)) fun _ _ =>
        .bind (.casts (casts_getString d _)) fun _ _ =>
        .bind (.casts (casts_getString d _)) fun _ _ => .pure (hrows.congr rfl)
  case otherPosts reply hr | profilePosts reply hr =>
    cases hr
    cases hl
    refine .lift (P := fun scr' => scr'.RowsOK posts) ?_
    cases reply with
    | error err => exact .ok hrows
    | ok ds => exact .bind (hlist.showAll ds) fun l' hl' => .pure ⟨l', rfl, hl'⟩
  case savedUser d hr =>
    cases hr
    cases hl
    refine .lift (P := fun scr' => scr'.RowsOK posts) ?_
    cases d with
    | none => exact .ok hrows
    | some d =>
      exact .bind (.casts (casts_getArray d _)) fun _ _ => .pure ⟨_, rfl, hlist.removeAll⟩
  case savedPost d hr =>
    cases hr
    cases hl
    refine .lift (P := fun scr' => scr'.RowsOK posts) ?_
    cases d with
    | none => exact .ok hrows
    | some d => exact .bind (hlist.showAll [d]) fun l' hl' => .pure ⟨l', rfl, hl'⟩
  case avatarPut e hr =>
    cases hr
    refine .lift (P := fun scr' => scr'.RowsOK posts) (.ok ?_)
    cases e <;> exact hrows
  case table hr =>
    rw [tableReceive_eq, hl, Option.bind_some, Option.map_eq_some_iff] at hr
    obtain ⟨x, hx, rfl⟩ := hr
    exact safe_setListing hl (hlist.receive hx)
  -- the other screens have no list of posts
  all_goals cases hl

end Screen

/-! ## The machine -/

/-- A screen with a list of posts. -/
structure PostRows where
  screen : Screen
  /-- The posts that the cells of the table were configured with last. -/
  configured : List AEPost := []
  fault : Option Fault := none

namespace PostRows

inductive Event
  /-- Something is done on the screen. -/
  | acted (env : Env) (a : Action)
  /-- A closure of the screen is called with a reply. -/
  | replied (env : Env) (k : Callback) (reply : Reply)

variable (s : PostRows)

/-- The screen after a handler that leaves the cells configured with `posts`. -/
def after (posts : List AEPost) : Except Fault (After Screen) → PostRows
  | .error f => { s with fault := some f }
  | .ok (screen, _) => { s with screen := screen, configured := posts }

def step : Event → Option PostRows
  | .acted env a =>
    if s.fault = none then
      (s.screen.act env a).map (s.after (s.screen.configured s.configured a))
    else none
  | .replied env k reply =>
    if s.fault = none then (s.screen.receive env k reply).map (s.after s.configured) else none

/-- The four screens as `viewDidLoad()` leaves them. -/
inductive Loaded : PostRows → Prop
  | home : Loaded { screen := .home HomeViewController.viewDidLoad.1 }
  | saved {env : Env} {s : SavedViewController} {es : List Effect}
      (h : SavedViewController.viewDidLoad env = .ok (s, es)) : Loaded { screen := .saved s }
  | otherProfile (otherUserID otherUserName : String) :
      Loaded
        { screen := .otherProfile
            (OtherProfileViewController.viewDidLoad otherUserID otherUserName).1 }
  | userProfile {env : Env} {s : UserProfileViewController} {es : List Effect}
      (h : UserProfileViewController.viewDidLoad env = .ok (s, es)) :
      Loaded { screen := .userProfile s }

end PostRows

/-- The screens with a list of posts as a machine. -/
def postRows : Machine PostRows PostRows.Event where
  Initial := PostRows.Loaded
  step := PostRows.step

namespace PostRows

variable {s t : PostRows} {e : Event}

/-- The rows are in order, and no handler has trapped. -/
structure Inv (s : PostRows) : Prop where
  rows : s.screen.RowsOK s.configured
  fault : ∀ t, s.fault ≠ some (.trap t)

theorem inv_after (h : s.Inv) {posts : List AEPost} {r : Except Fault (After Screen)}
    (hr : Safe (fun x => x.1.RowsOK posts) r) : (s.after posts r).Inv := by
  cases r with
  | error f =>
    refine ⟨h.rows, fun t ht => ?_⟩
    cases ht
    exact hr.2 t rfl
  | ok x => exact ⟨hr.1 x rfl, h.fault⟩

theorem inv_step (h : s.Inv) (hs : s.step e = some t) : t.Inv := by
  cases e with
  | acted env a =>
    simp only [step, Option.ite_none_right_eq_some, Option.map_eq_some_iff] at hs
    obtain ⟨-, r, hr, rfl⟩ := hs
    exact inv_after h (h.rows.act hr)
  | replied env k reply =>
    simp only [step, Option.ite_none_right_eq_some, Option.map_eq_some_iff] at hs
    obtain ⟨-, r, hr, rfl⟩ := hs
    exact inv_after h (h.rows.receive hr)

theorem inv_loaded (h : s.Loaded) : s.Inv := by
  have hempty : ∀ {scr : Screen} {l : PostListing}, scr.listing = some l →
      l.postsToShow = {} → l.cells = [] → Inv { screen := scr } := by
    intro scr l hl hposts hcells
    refine ⟨⟨l, hl, ?_, ?_⟩, fun t ht => by cases ht⟩
    · rw [hposts]
      rfl
    · rw [hcells]
      exact .nil
  cases h with
  | home => exact hempty rfl rfl rfl
  | otherProfile otherUserID otherUserName => exact hempty rfl rfl rfl
  | saved h =>
    simp only [SavedViewController.viewDidLoad, SavedViewController.loadSavedPosts, bind_eq_ok,
      pure_eq_ok, Prod.mk.injEq] at h
    obtain ⟨_, -, rfl, -⟩ := h
    exact hempty rfl rfl rfl
  | userProfile h =>
    simp only [UserProfileViewController.viewDidLoad, bind_eq_ok, pure_eq_ok, Prod.mk.injEq] at h
    obtain ⟨_, -, rfl, -⟩ := h
    exact hempty rfl rfl rfl

theorem inv_reachable (h : postRows.Reachable s) : s.Inv :=
  h.induct (fun _ => inv_loaded) fun _ _ _ _ hi _ hs => inv_step hi hs

/-! ## Taps -/

/-- The batch updates and the taps work on the posts that are displayed. -/
structure TapsFollowRows (s : PostRows) : Prop where
  /-- No batch update has failed its check and no subscript was out of range. -/
  noTrap : ∀ t, s.fault ≠ some (.trap t)
  /-- The table has a row for every post, so an insertion comes when it has one row fewer. -/
  aligned : ∀ l : PostListing, s.screen.listing = some l → l.postsToShow.Aligned
  /-- Every cell was configured with a post. -/
  configured : ∀ (l : PostListing) (k : ℕ) (cell : PostTableViewCell),
    s.screen.listing = some l → l.cells[k]? = some cell →
    ∃ post, s.configured[k]? = some post ∧ cell.postID = post.id ∧ cell.userTopLabel = post.opName
  /-- A tap on the comment button of a displayed cell leads to the comments of its post. -/
  comments : ∀ (env : Env) (l : PostListing) (k : ℕ) (cell : PostTableViewCell) (row : ℕ)
    (post : AEPost), s.screen.listing = some l → l.cells[k]? = some cell →
    cell.row = some row → s.configured[k]? = some post →
    s.screen.act env (.table (.pressedViewComments k)) = some (.ok (s.screen.setListing
      { l with opID := post.opID, opName := post.opName, postID := post.id },
      [.segue (.comments post.id post.opName)]))
  /-- The selection of a displayed row leads to the profile of the author of its post. -/
  select : ∀ (env : Env) (l : PostListing) (k : ℕ) (cell : PostTableViewCell) (row : ℕ)
    (post : AEPost), s.screen.listing = some l → l.cells[k]? = some cell →
    cell.row = some row → s.configured[k]? = some post →
    s.screen.kind = .home ∨ s.screen.kind = .saved →
    s.screen.act env (.didSelectRowAt row) = some (.ok (s.screen.setListing
      { l with opID := post.opID, opName := post.opName, postID := post.id },
      [.segue (.otherProfile post.opID post.opName)]))

theorem Inv.cell (h : s.Inv) {l : PostListing} {k : ℕ} {cell : PostTableViewCell} {post : AEPost}
    (hl : s.screen.listing = some l) (hk : l.cells[k]? = some cell)
    (hpost : s.configured[k]? = some post) : CellOK l.postsToShow.items cell post := by
  obtain ⟨l', hl', hrows⟩ := h.rows
  cases hl.symm.trans hl'
  obtain ⟨post', hpost', hc⟩ := forall₂_getElem? hrows.cells hk
  cases hpost.symm.trans hpost'
  exact hc

/-- What `prepareInfo` copies from the row of a displayed post. -/
theorem prepareInfo_eq {l : PostListing} {row : ℕ} {post : AEPost}
    (hpost : l.postsToShow.items[row]? = some post) :
    l.prepareInfo row =
      .ok { l with opID := post.opID, opName := post.opName, postID := post.id } := by
  rw [PostListing.prepareInfo, RowList.get_eq_ok.2 hpost]
  rfl

theorem Inv.aligned (h : s.Inv) {l : PostListing} (hl : s.screen.listing = some l) :
    l.postsToShow.Aligned := by
  obtain ⟨l', hl', hrows⟩ := h.rows
  cases hl.symm.trans hl'
  exact hrows.aligned

/-- **Taps act on the post that the row displays**, and the rows are inserted as the batch updates
require, in every reachable state. -/
theorem taps_follow_rows (h : postRows.Reachable s) : s.TapsFollowRows := by
  have hI := inv_reachable h
  refine ⟨hI.fault, fun l hl => hI.aligned hl, fun l k cell hl hk => ?_, ?_, ?_⟩
  · obtain ⟨l', hl', hrows⟩ := hI.rows
    cases hl.symm.trans hl'
    obtain ⟨post, hpost, hc⟩ := forall₂_getElem? hrows.cells hk
    exact ⟨post, hpost, hc.postID, hc.opName⟩
  · intro env l k cell row post hl hk hrow hpost
    obtain ⟨hback, hitem⟩ := (hI.cell hl hk hpost).row row hrow
    have hact : l.act env (.pressedViewComments k) = some (.ok
        ({ l with opID := post.opID, opName := post.opName, postID := post.id },
          [.segue (.comments post.id post.opName)])) := by
      simp only [PostListing.act, hk, hrow, hback, reduceCtorEq, if_false,
        PostListing.callBackOnCommentButton, prepareInfo_eq hitem]
      rfl
    rw [Screen.act, Screen.tableAct_eq, hl, Option.bind_some, hact]
    rfl
  · intro env l k cell row post hl hk hrow hpost hkind
    obtain ⟨-, hitem⟩ := (hI.cell hl hk hpost).row row hrow
    have hlt : row < l.postsToShow.rowCount := by
      rw [hI.aligned hl]
      exact (List.getElem?_eq_some_iff.1 hitem).1
    have hselect : l.didSelectRowAt row = .ok
        ({ l with opID := post.opID, opName := post.opName, postID := post.id },
          [.segue (.otherProfile post.opID post.opName)]) := by
      rw [PostListing.didSelectRowAt, prepareInfo_eq hitem]
      rfl
    generalize s.screen = scr at hl hkind
    rw [Screen.act]
    cases scr <;> simp only [Screen.kind, reduceCtorEq, or_self] at hkind <;> cases hl
    all_goals
      simp only [Screen.didSelectRowAt, if_pos hlt, hselect]
      rfl

/-- A home screen with two posts of Ann's, both displayed. -/
def twoRows : List Event :=
  [.replied {} .homePosts (.documents (.ok
     [.ofFields (postDocument "1" "ann" "Ann" ["art"] "" "Sketch" "" 0),
      .ofFields (postDocument "2" "ann" "Ann" ["music"] "" "Song" "" 0)])),
   .acted {} (.table (.cellForRowAt 0 none)),
   .acted {} (.table (.cellForRowAt 1 none))]

theorem taps_follow_rows_two : ∃ s : PostRows,
    s.configured.map AEPost.id = ["1", "2"] ∧ s.TapsFollowRows := by
  obtain ⟨s, hs, hp⟩ := postRows.exists_of_run { screen := .home HomeViewController.viewDidLoad.1 }
    twoRows (fun s => decide (s.configured.map AEPost.id = ["1", "2"])) (by decide +kernel)
  exact ⟨s, of_decide_eq_true hp, taps_follow_rows (hs.reachable (.init .home))⟩

end PostRows

end ArtsExplorer
