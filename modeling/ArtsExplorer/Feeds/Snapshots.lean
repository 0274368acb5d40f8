import ArtsExplorer.App.Decoding
import ArtsExplorer.App.Replies
import ArtsExplorer.Foundations.Query
import ArtsExplorer.System.Contract
import ArtsExplorer.System.Start

/-!
# The lists are snapshots

Home, the comments and the two moderation screens empty their list before they show an answer.
However the screens' calls overlap, such a list is one answer, read whole, of which a moderator may
have removed items. The two profiles add every answer to what they list, so that their list is
answers to the query of their user, one after the other. An answer is the top of what the query
selected in the store at one moment (`lists_are_snapshots`). So a list, or what a profile lists of
one answer, is ranked: different items, at most as many as the limit, by their time
(`lists_in_order`).
-/

namespace ArtsExplorer

open Foundations

/-- The query of a call, with the collection and the closure that gets the answer. -/
def Request.query : Request → Option (CollectionName × Query × Callback)
  | .getDocuments n q k => some (n, q, k)
  | .addSnapshotListener n q k => some (n, q, k)
  | _ => none

namespace Screen

variable {env : Env} {scr scr' : Screen} {es : List Effect}

/-- A query of the home feed. -/
def IsFeed (q : Query) : Prop :=
  q = HomeViewController.approvedPosts ∨ ∃ c, q = HomeViewController.approvedPostsOf c

/-- The segue that opened a profile or comments screen, and the title of the screen. -/
def heading : Screen → Option (Destination × String)
  | .otherProfile p => some (.otherProfile p.otherUserID p.otherUserName, "")
  | .comments v => some (.comments v.postID v.opName, v.titleLabel)
  | _ => none

/-- The queries that fill the list of a screen. -/
def Asks (scr : Screen) (r : Request) : Prop :=
  match scr.kind, r.query with
  | .home, some (n, q, .homePosts) => n = .posts ∧ IsFeed q
  | .otherProfile, some (n, q, .otherPosts) =>
    n = .posts ∧ ∃ o name title, scr.heading = some (.otherProfile o name, title) ∧
      q = OtherProfileViewController.approvedPostsBy o
  | .comments, some (n, q, .comments) =>
    n = .comments ∧ ∃ p name title, scr.heading = some (.comments p name, title) ∧
      q = CommentsViewController.approvedComments p
  | .moderationPosts, some (n, q, .pending) => n = .posts ∧ q = pendingQuery 15
  | .moderationComments, some (n, q, .pending) => n = .comments ∧ q = pendingQuery 20
  | _, _ => True

/-- The query that fills the list of the own profile. It goes by `opID`, which a row overwrites. -/
def AsksOwn (scr : Screen) (r : Request) : Prop :=
  match scr with
  | .userProfile p => ∀ n q, r.query = some (n, q, .profilePosts) →
    n = .posts ∧ q = UserProfileViewController.postsBy p.listing.opID
  | _ => True

theorem Asks.congr {r : Request} (h : scr.Asks r) (hk : scr'.kind = scr.kind)
    (hs : scr'.heading = scr.heading) : scr'.Asks r := by
  unfold Asks at h ⊢
  rwa [hk, hs]

theorem heading_setListing (l : PostListing) : (scr.setListing l).heading = scr.heading := by
  cases scr <;> rfl

theorem act_heading {a : Action} (h : scr.act env a = some (.ok (scr', es))) :
    scr'.heading = scr.heading := by
  replace h := act_cases h
  cases h
  case table h =>
    obtain ⟨l, l', -, -, rfl⟩ := tableAct_ok h
    exact heading_setListing l'
  case didSelectRowAt h =>
    obtain ⟨l, l', -, -, rfl⟩ := didSelectRowAt_ok h
    exact heading_setListing l'
  case refresh h => rw [(refresh_emits h).1]
  case type h =>
    simp only [Option.map_eq_some_iff, Except.ok.injEq, Prod.mk.injEq] at h
    obtain ⟨s', hs', rfl, -⟩ := h
    unfold Screen.type at hs'
    split at hs' <;> (try split_ifs at hs') <;> cases hs' <;> rfl
  case didSelectMenuRow h =>
    simp only [HomeViewController.didSelectMenuRow, Option.map_map, Option.map_eq_some_iff,
      Function.comp_apply, lift_eq_ok, Except.ok.injEq, Prod.mk.injEq] at h
    obtain ⟨item, -, x, -, rfl, -⟩ := h
    rfl
  case sendCommentPressed h =>
    simp only [lift_eq_ok, Prod.mk.injEq] at h
    obtain ⟨x, hx, rfl, -⟩ := h
    rw [(@sendCommentPressed_emits env _ _ _ hx).1]
  all_goals
    rename_i h
    simp only [lift_eq_ok, Except.ok.injEq, Prod.mk.injEq] at h
    first
      | (obtain ⟨rfl, -⟩ := h; rfl)
      | (obtain ⟨x, -, rfl, -⟩ := h; rfl)

theorem receive_heading {k : Callback} {r : Reply}
    (h : scr.receive env k r = some (.ok (scr', es))) : scr'.heading = scr.heading := by
  cases receive_learns h with
  | cell => exact heading_setListing _
  | otherInfo _ hid hname => rw [heading, heading, hid, hname]
  | _ => rfl

/-! ## What the screens ask for -/

/-- A call on a document is no query. -/
theorem asks_of_emits_listing {l : PostListing} {b : Bool} {r : Request}
    (h : l.Emits env b (.request r)) : scr.Asks r := by
  cases h <;> cases scr <;> trivial

theorem asks_loadPosts (s : HomeViewController) {r : Request}
    (h : .request r ∈ HomeViewController.loadPosts) : (Screen.home s).Asks r := by
  cases List.mem_singleton.1 h
  exact ⟨rfl, .inl rfl⟩

theorem asks_loadSpecificPosts (s : HomeViewController) {c : String} {r : Request}
    (h : .request r ∈ HomeViewController.loadSpecificPosts c) : (Screen.home s).Asks r := by
  cases List.mem_singleton.1 h
  exact ⟨rfl, .inr ⟨c, rfl⟩⟩

theorem refresh_asks (h : scr.refresh env = some (.ok (scr', es))) {r : Request}
    (hr : .request r ∈ es) : scr.Asks r := by
  cases refresh_cases h with
  | home s h =>
    cases h
    unfold HomeViewController.reloadPosts at hr
    split_ifs at hr
    · exact asks_loadPosts _ hr
    · exact asks_loadSpecificPosts _ hr
  | otherProfile s h =>
    cases h
    cases List.mem_singleton.1 hr
    exact ⟨rfl, _, _, _, rfl, rfl⟩
  | moderationPosts s h | moderationComments s h =>
    cases h
    cases List.mem_singleton.1 hr
    exact ⟨rfl, rfl⟩
  | saved | userProfile => trivial

theorem didSelectMenuItem_asks {s : HomeViewController} {chosen : String} {r : Request}
    (h : .request r ∈ (s.didSelectMenuItem env chosen).2) : (Screen.home s).Asks r := by
  unfold HomeViewController.didSelectMenuItem at h
  split_ifs at h
  · simp at h
  · dsimp only at h
    split at h <;> simp at h
  · exact asks_loadPosts s h
  · exact asks_loadSpecificPosts s h

/-- **What an action of a screen asks for.** -/
theorem act_asks {a : Action} (h : scr.act env a = some (.ok (scr', es))) {r : Request}
    (hr : .request r ∈ es) : scr.Asks r := by
  replace h := act_cases h
  cases h
  case table h =>
    obtain ⟨l, l', -, hact, -⟩ := tableAct_ok h
    exact asks_of_emits_listing ((PostListing.act_spec hact).2.2 _ hr)
  case didSelectRowAt h =>
    obtain ⟨l, l', -, hsel, -⟩ := didSelectRowAt_ok h
    exact asks_of_emits_listing ((@PostListing.didSelectRowAt_spec env _ _ _ _ hsel).2.2 _ hr)
  case refresh h => exact refresh_asks h hr
  case type h =>
    simp only [Option.map_eq_some_iff, Except.ok.injEq, Prod.mk.injEq] at h
    obtain ⟨s', -, -, rfl⟩ := h
    cases hr
  case tappedMenu h =>
    simp only [HomeViewController.tappedMenu, MenuListController.viewDidLoad,
      lift_eq_ok, Prod.mk.injEq] at h
    obtain ⟨x, hx, -, rfl⟩ := h
    split_ifs at hx
    · cases hx
      cases hr
    · simp only [bind_eq_ok, Env.uid_eq_ok, pure_eq_ok] at hx
      obtain ⟨_, ⟨u, -, rfl⟩, rfl⟩ := hx
      cases List.mem_singleton.1 hr
      trivial
  case didSelectMenuRow h =>
    simp only [HomeViewController.didSelectMenuRow, Option.map_map, Option.map_eq_some_iff,
      Function.comp_apply, lift_eq_ok, Except.ok.injEq, Prod.mk.injEq] at h
    obtain ⟨item, -, x, rfl, -, rfl⟩ := h
    exact didSelectMenuItem_asks hr
  case sendCommentPressed h =>
    simp only [lift_eq_ok, Prod.mk.injEq] at h
    obtain ⟨x, hx, -, rfl⟩ := h
    cases (sendCommentPressed_emits hx).2.2 _ hr <;> trivial
  case approvePost h | approveComment h =>
    simp only [lift_eq_ok, Prod.mk.injEq] at h
    obtain ⟨x, hx, -, rfl⟩ := h
    obtain ⟨item, -, -, hes⟩ := callBackOnApproveButton_spec hx
    rw [hes, List.mem_singleton] at hr
    cases hr
    trivial
  case denyPost h | denyComment h =>
    simp only [lift_eq_ok, Prod.mk.injEq] at h
    obtain ⟨x, hx, -, rfl⟩ := h
    obtain ⟨item, -, -, hes⟩ := callBackOnDenyButton_spec hx
    rw [hes, List.mem_singleton] at hr
    cases hr
    trivial
  case otherPictureLoaded h =>
    simp only [Except.ok.injEq, Prod.mk.injEq] at h
    obtain ⟨-, rfl⟩ := h
    cases hr
  -- the other screens have no query of this kind
  all_goals trivial

/-- What `viewDidLoad` asks for. -/
theorem asks_of_loaded {d : Destination} {rs : List Request} (h : Loaded env d scr rs)
    {r : Request} (hr : r ∈ rs) : scr.Asks r := by
  cases h
  case otherProfile =>
    simp only [List.mem_cons, List.not_mem_nil, or_false] at hr
    rcases hr with rfl | rfl
    · trivial
    · exact ⟨rfl, _, _, _, rfl, rfl⟩
  case comments =>
    cases List.mem_singleton.1 hr
    exact ⟨rfl, _, _, _, rfl, rfl⟩
  case moderationPosts | moderationComments =>
    cases List.mem_singleton.1 hr
    exact ⟨rfl, rfl⟩
  all_goals trivial

/-- No closure asks for a list. -/
theorem receive_asks {k : Callback} {r : Reply} (h : scr.receive env k r = some (.ok (scr', es)))
    {req : Request} (hr : .request req ∈ es) : scr.Asks req := by
  have hans := (receive_answers h).2 _ hr
  cases hans
  case cell => cases scr <;> trivial
  all_goals trivial

/-! ## What the screens list -/

/-- A list that holds what `decode` reads from an answer to query `q` of collection `n`; `R` says
which answers there are. -/
def Whole {α : Type} (R : CollectionName → Query → List Document → Prop) (n : CollectionName)
    (q : Query) (decode : Document → Except Fault α) (items : List α) : Prop :=
  items = [] ∨ ∃ ds, R n q ds ∧ decodeAll decode ds = .ok items

/-- A list that holds what `decode` reads from answers to query `q`, one answer after the other. -/
def Appended {α : Type} (R : CollectionName → Query → List Document → Prop) (n : CollectionName)
    (q : Query) (decode : Document → Except Fault α) (items : List α) : Prop :=
  ∃ xss : List (List α), items = xss.flatten ∧
    ∀ xs ∈ xss, ∃ ds, R n q ds ∧ decodeAll decode ds = .ok xs

/-- The lists of the screens are made of answers: one answer each, of which a moderation screen may
have removed items, except for the profiles, which add every answer to their list. -/
def ListsFrom (R : CollectionName → Query → List Document → Prop) : Screen → Prop
  | .home h => ∃ q, IsFeed q ∧ Whole R .posts q AEPost.ofDocument h.listing.postsToShow.items
  | .otherProfile p =>
    Appended R .posts (OtherProfileViewController.approvedPostsBy p.otherUserID) AEPost.ofDocument
      p.listing.postsToShow.items
  | .userProfile p =>
    Appended R .posts (UserProfileViewController.postsBy p.listing.opID) AEPost.ofDocument
      p.listing.postsToShow.items
  | .comments v => Whole R .comments (CommentsViewController.approvedComments v.postID)
    (Comment.ofDocument true) v.commentsToShow.items
  | .moderationPosts l =>
    ∃ xs, Whole R .posts (pendingQuery 15) AEPost.ofDocument xs ∧ l.items.Sublist xs
  | .moderationComments l =>
    ∃ xs, Whole R .comments (pendingQuery 20) (Comment.ofDocument false) xs ∧ l.items.Sublist xs
  | _ => True

variable {R R' : CollectionName → Query → List Document → Prop}

theorem Whole.mono {α : Type} {n : CollectionName} {q : Query} {decode : Document → Except Fault α}
    {items : List α} (h : Whole R n q decode items) (hR : ∀ n q ds, R n q ds → R' n q ds) :
    Whole R' n q decode items :=
  h.imp_right fun ⟨ds, hds, hdec⟩ => ⟨ds, hR n q ds hds, hdec⟩

theorem Appended.nil {α : Type} {n : CollectionName} {q : Query}
    {decode : Document → Except Fault α} : Appended R n q decode [] :=
  ⟨[], rfl, fun _ h => by cases h⟩

theorem Appended.append {α : Type} {n : CollectionName} {q : Query}
    {decode : Document → Except Fault α} {items xs : List α} (h : Appended R n q decode items)
    {ds : List Document} (hds : R n q ds) (hdec : decodeAll decode ds = .ok xs) :
    Appended R n q decode (items ++ xs) := by
  obtain ⟨xss, rfl, hxss⟩ := h
  refine ⟨xss ++ [xs], by simp, fun ys hys => ?_⟩
  rcases List.mem_append.1 hys with hys | hys
  · exact hxss ys hys
  · rw [List.mem_singleton.1 hys]
    exact ⟨ds, hds, hdec⟩

theorem Appended.mono {α : Type} {n : CollectionName} {q : Query}
    {decode : Document → Except Fault α} {items : List α} (h : Appended R n q decode items)
    (hR : ∀ n q ds, R n q ds → R' n q ds) : Appended R' n q decode items := by
  obtain ⟨xss, hitems, hxss⟩ := h
  refine ⟨xss, hitems, fun xs hxs => ?_⟩
  obtain ⟨ds, hds, hdec⟩ := hxss xs hxs
  exact ⟨ds, hR n q ds hds, hdec⟩

theorem ListsFrom.mono (h : scr.ListsFrom R) (hR : ∀ n q ds, R n q ds → R' n q ds) :
    scr.ListsFrom R' := by
  cases scr
  case home =>
    obtain ⟨q, hq, hw⟩ := h
    exact ⟨q, hq, hw.mono hR⟩
  case otherProfile | userProfile => exact Appended.mono h hR
  case comments => exact Whole.mono h hR
  case moderationPosts | moderationComments =>
    obtain ⟨xs, hw, hsub⟩ := h
    exact ⟨xs, hw.mono hR, hsub⟩
  all_goals trivial

/-- A screen lists nothing when it is created. -/
theorem listsFrom_of_loaded {d : Destination} {rs : List Request} (h : Loaded env d scr rs) :
    scr.ListsFrom R := by
  cases h
  case otherProfile | userProfile => exact .nil
  case comments => exact .inl rfl
  case moderationPosts | moderationComments => exact ⟨[], .inl rfl, List.Sublist.refl []⟩
  all_goals trivial

/-- The own profile lists posts of the user that it has in `opID`. -/
def OwnOnly : Screen → Prop
  | .userProfile p => ∀ post ∈ p.listing.postsToShow.items, post.opID = p.listing.opID
  | _ => True

/-- So a row does not change `opID`. -/
theorem OwnOnly.opID_eq {p : UserProfileViewController} (h : (Screen.userProfile p).OwnOnly)
    {l : PostListing} (hf : p.listing.Follows l) : l.opID = p.listing.opID := by
  rcases hf.opID with hop | ⟨post, hpost, hop⟩
  · exact hop
  · rw [← hop, h post hpost]

theorem listsFrom_setListing {l l' : PostListing} (h : scr.ListsFrom R) (hown : scr.OwnOnly)
    (hl : scr.listing = some l) (hf : l.Follows l') : (scr.setListing l').ListsFrom R := by
  cases scr <;> cases hl
  case home | otherProfile =>
    simp only [setListing, ListsFrom] at h ⊢
    rwa [hf.postsToShow]
  case userProfile p =>
    simp only [setListing, ListsFrom] at h ⊢
    rwa [hf.postsToShow, hown.opID_eq hf]
  all_goals trivial

/-- The buttons of a moderation screen remove items at most. -/
theorem buttons_sublist {α : Type} {m : Queue α} {s s' : PendingList α} {row : ℕ}
    (h : m.callBackOnApproveButton s row = .ok (s', es) ∨
      m.callBackOnDenyButton s row = .ok (s', es)) : s'.items.Sublist s.items := by
  rcases h with h | h
  · obtain ⟨item, -, hitems, -⟩ := callBackOnApproveButton_spec h
    rw [hitems]
    exact List.eraseIdx_sublist ..
  · obtain ⟨item, -, hitems, -⟩ := callBackOnDenyButton_spec h
    rw [hitems]

theorem moderationPosts_sublist {s s' : PendingList AEPost} {a : Action}
    (h : (Screen.moderationPosts s).act env a = some (.ok (.moderationPosts s', es))) :
    s'.items.Sublist s.items := by
  cases act_cases h with
  | table a h =>
    obtain ⟨l, l', hl, -, -⟩ := tableAct_ok h
    cases hl
  | didSelectRowAt row h =>
    obtain ⟨l, l', hl, -, -⟩ := didSelectRowAt_ok h
    cases hl
  | refresh h =>
    cases h
    exact List.Sublist.refl _
  | type field text h => cases h
  | approvePost s row hrow h =>
    simp only [lift_eq_ok, Prod.mk.injEq, Screen.moderationPosts.injEq] at h
    obtain ⟨x, hx, rfl, -⟩ := h
    exact buttons_sublist (.inl hx)
  | denyPost s row hrow h =>
    simp only [lift_eq_ok, Prod.mk.injEq, Screen.moderationPosts.injEq] at h
    obtain ⟨x, hx, rfl, -⟩ := h
    exact buttons_sublist (.inr hx)

theorem moderationComments_sublist {s s' : PendingList Comment} {a : Action}
    (h : (Screen.moderationComments s).act env a = some (.ok (.moderationComments s', es))) :
    s'.items.Sublist s.items := by
  cases act_cases h with
  | table a h =>
    obtain ⟨l, l', hl, -, -⟩ := tableAct_ok h
    cases hl
  | didSelectRowAt row h =>
    obtain ⟨l, l', hl, -, -⟩ := didSelectRowAt_ok h
    cases hl
  | refresh h =>
    cases h
    exact List.Sublist.refl _
  | type field text h => cases h
  | approveComment s row hrow h =>
    simp only [lift_eq_ok, Prod.mk.injEq, Screen.moderationComments.injEq] at h
    obtain ⟨x, hx, rfl, -⟩ := h
    exact buttons_sublist (.inl hx)
  | denyComment s row hrow h =>
    simp only [lift_eq_ok, Prod.mk.injEq, Screen.moderationComments.injEq] at h
    obtain ⟨x, hx, rfl, -⟩ := h
    exact buttons_sublist (.inr hx)

/-- **An action** makes no list of anything else. -/
theorem act_listsFrom {a : Action} (h : scr.act env a = some (.ok (scr', es)))
    (hl : scr.ListsFrom R) (hown : scr.OwnOnly) : scr'.ListsFrom R := by
  have hheading := act_heading h
  have hfollows := act_follows h
  cases hfollows with
  | home hf => rwa [ListsFrom, hf.postsToShow]
  | otherProfile hf =>
    simp only [heading, Option.some.injEq, Prod.mk.injEq,
      Destination.otherProfile.injEq] at hheading
    rwa [ListsFrom, hf.postsToShow, hheading.1.1]
  | userProfile hf => rwa [ListsFrom, hf.postsToShow, hown.opID_eq hf]
  | comments hp hc => rwa [ListsFrom, hp, hc]
  | moderationPosts =>
    obtain ⟨xs, hw, hsub⟩ := hl
    exact ⟨xs, hw, (moderationPosts_sublist h).trans hsub⟩
  | moderationComments =>
    obtain ⟨xs, hw, hsub⟩ := hl
    exact ⟨xs, hw, (moderationComments_sublist h).trans hsub⟩
  | _ => trivial

/-- **A reply** makes a list of what it answers. -/
theorem receive_listsFrom {k : Callback} {r : Reply} {req : Request}
    (h : scr.receive env k r = some (.ok (scr', es))) (hl : scr.ListsFrom R) (hown : scr.OwnOnly)
    (hreq : scr.Asks req) (hreqOwn : scr.AsksOwn req)
    (hds : ∀ ds, r = .documents (.ok ds) → ∃ n q, req.query = some (n, q, k) ∧ R n q ds) :
    scr'.ListsFrom R := by
  have hlearns := receive_learns h
  unfold Asks at hreq
  cases hlearns with
  | unchanged => exact hl
  | cell hlist hf => exact listsFrom_setListing hl hown hlist hf
  | @homePosts s l ds hshow =>
    obtain ⟨n, q, hq, hR⟩ := hds ds rfl
    obtain ⟨posts, hposts, hitems⟩ := PostListing.showAll_items hshow
    rw [hq] at hreq
    obtain ⟨rfl, hfeed⟩ := hreq
    refine ⟨q, hfeed, .inr ⟨ds, hR, ?_⟩⟩
    rw [hitems, hposts]
    rfl
  | menu => exact hl
  | otherInfo hlist hid => rwa [ListsFrom, hlist, hid]
  | @otherPosts s l ds hshow =>
    obtain ⟨n, q, hq, hR⟩ := hds ds rfl
    obtain ⟨posts, hposts, hitems⟩ := PostListing.showAll_items hshow
    rw [hq] at hreq
    obtain ⟨rfl, o, name, title, ho, rfl⟩ := hreq
    cases ho
    rw [ListsFrom, hitems]
    exact Appended.append hl hR hposts
  | @profilePosts s l ds hshow =>
    obtain ⟨n, q, hq, hR⟩ := hds ds rfl
    obtain ⟨posts, hposts, hitems⟩ := PostListing.showAll_items hshow
    obtain ⟨rfl, rfl⟩ := hreqOwn n q hq
    rw [ListsFrom, hitems, PostListing.showAll_opID hshow]
    exact Appended.append hl hR hposts
  | profileInfo hlist => rwa [ListsFrom, hlist]
  | @comments s ds comments l hdec hrows =>
    obtain ⟨n, q, hq, hR⟩ := hds ds rfl
    rw [hq] at hreq
    obtain ⟨rfl, p, name, title, hp, rfl⟩ := hreq
    cases hp
    refine .inr ⟨ds, hR, ?_⟩
    rw [hdec, RowList.items_appendAll hrows]
    rfl
  | commentUser => exact hl
  | @pendingPosts s l ds items hdec hrows | @pendingComments s l ds items hdec hrows =>
    obtain ⟨n, q, hq, hR⟩ := hds ds rfl
    rw [hq] at hreq
    obtain ⟨rfl, rfl⟩ := hreq
    refine ⟨items, .inr ⟨ds, hR, hdec⟩, ?_⟩
    rw [RowList.items_appendAll hrows]
    exact List.Sublist.refl _
  | deniedPost hrem | deniedComment hrem =>
    obtain ⟨xs, hw, hsub⟩ := hl
    refine ⟨xs, hw, ?_⟩
    rw [RowList.items_removeAt hrem]
    exact (List.eraseIdx_sublist ..).trans hsub
  | _ => trivial

end Screen

namespace System

/-! ## Answers that have been given -/

section Answers

variable {ι : Type}

/-- Query `q` of collection `n` has been answered with `ds`. -/
def Got (s : System ι) (n : CollectionName) (q : Query) (ds : List Document) : Prop :=
  ∃ f ∈ s.net, ∃ k, f.request.query = some (n, q, k) ∧ f.reply = some (.documents (.ok ds))

theorem Extends.got {s t : System ι} (h : s.Extends t) {n : CollectionName} {q : Query}
    {ds : List Document} (hg : s.Got n q ds) : t.Got n q ds := by
  obtain ⟨f, hf, k, hq, hr⟩ := hg
  obtain ⟨f', hf', hgr⟩ := h.mem_net hf
  exact ⟨f', hf', k, hgr.request ▸ hq, hgr.reply _ hr⟩

variable [DecidableEq ι] {s t : System ι}

/-- A state that a run to `t` has passed through. -/
structure Precedes (s t : System ι) : Prop where
  reachable : (machine ι).Reachable s
  run : ∃ es, (machine ι).Steps (fun _ _ => True) s es t

theorem Precedes.step (h : s.Precedes t) {e : Event ι} {u : System ι} (hs : t.step e = some u) :
    s.Precedes u := by
  obtain ⟨es, hrun⟩ := h.run
  exact ⟨h.reachable, es ++ [e], hrun.snoc trivial hs⟩

theorem Precedes.extends (h : s.Precedes t) : s.Extends t := by
  obtain ⟨es, hrun⟩ := h.run
  exact extends_of_steps hrun

theorem Precedes.inv (h : s.Precedes t) : s.Inv False :=
  reachable_inv (h.reachable.mono fun _ _ _ => False.elim)

/-- **Every answer was given at some moment.** -/
theorem exists_served (h : (machine ι).Reachable s) : ∀ f ∈ s.net, ∀ r, f.reply = some r →
    ∃ (u v : System ι) (a : Answer), u.Precedes s ∧ u.Served f.request a v r := by
  refine h.induct (I := fun s => ∀ f ∈ s.net, ∀ r, f.reply = some r →
    ∃ (u v : System ι) (a : Answer), u.Precedes s ∧ u.Served f.request a v r)
    (fun s h₀ => by simp [h₀.net]) fun s e t hvia hi _ hs f hf r hr => ?_
  rcases answered_cases hs hf hr with ⟨f₀, hf₀, hg, hr₀⟩ | ⟨i, a, v, -, hserved, -, -⟩
  · obtain ⟨u, v, a, hu, hserved⟩ := hi f₀ hf₀ r hr₀
    exact ⟨u, v, a, hu.step hs, hg.request ▸ hserved⟩
  · exact ⟨s, v, a, Precedes.step ⟨hvia, [], .nil s⟩ hs, hserved⟩

/-- A document that a read has found was stored at that moment. -/
theorem exists_lookup (h : (machine ι).Reachable s) {f : Flight ι} (hf : f ∈ s.net)
    {n : CollectionName} {id : String} {k : Callback} {d : Document}
    (hreq : f.request = .getDocument n id k) (hr : f.reply = some (.document (some d))) :
    ∃ u : System ι, u.Precedes s ∧ (u.store n).lookup id = some d := by
  obtain ⟨u, v, a, hu, hserved⟩ := exists_served h f hf _ hr
  refine ⟨u, hu, ?_⟩
  rw [hreq] at hserved
  generalize hrep : Reply.document (some d) = r at hserved
  cases hserved with
  | document => exact (Reply.document.inj hrep).symm
  | failed e hr =>
    rw [← hrep] at hr
    simp at hr

/-- `ds` is the top of what query `q` selected at some moment. -/
def WasTop (s : System ι) (n : CollectionName) (q : Query) (ds : List Document) : Prop :=
  ∃ u : System ι, u.Precedes s ∧ ∃ es, ds = es.map (·.2) ∧ q.Top (u.store n) es

/-- The documents of a snapshot are recorded. -/
theorem WasTop.recorded {n : CollectionName} {q : Query} {ds : List Document}
    (h : s.WasTop n q ds) (hn : n ≠ .users) {d : Document} (hd : d ∈ ds) :
    ∃ id, s.Recorded n id d := by
  obtain ⟨u, hu, es, rfl, htop⟩ := h
  obtain ⟨e, he, rfl⟩ := List.mem_map.1 hd
  have hstored := hu.inv.stored n e.1 e.2 (Collection.mem_selected.1 (htop.selected e he)).1
  exact ⟨e.1, hu.extends.recorded ((documentOK_iff_recorded hn).1 hstored)⟩

/-- **An answer to a query is a snapshot.** -/
theorem Got.wasTop (h : (machine ι).Reachable s) {n : CollectionName} {q : Query}
    {ds : List Document} (hg : s.Got n q ds) : s.WasTop n q ds := by
  obtain ⟨f, hf, k, hq, hr⟩ := hg
  obtain ⟨u, v, a, hu, hserved⟩ := exists_served h f hf _ hr
  obtain ⟨es, hes, htop⟩ := (u.store n).exists_top q
  refine ⟨u, hu, es, ?_, htop⟩
  rw [← hes]
  generalize f.request = req at hserved hq
  cases hserved with
  | documents | snapshot =>
    cases hq
    rfl
  | failed e hr => simp at hr

/-- The answer of a call is that of its query. -/
theorem got_of_reply (h : (machine ι).Reachable s) {f : Flight ι} (hf : f ∈ s.net) {k : Callback}
    (hk : f.request.callback = some k) {ds : List Document}
    (hr : f.reply = some (.documents (.ok ds))) :
    ∃ n q, f.request.query = some (n, q, k) ∧ s.Got n q ds := by
  obtain ⟨u, v, a, -, hserved⟩ := exists_served h f hf _ hr
  have hquery : ∃ n q, f.request.query = some (n, q, k) := by
    generalize f.request = req at hserved hk
    cases hserved with
    | documents n q k' | snapshot n q k' =>
      cases hk
      exact ⟨n, q, rfl⟩
    | failed e hr => simp at hr
  obtain ⟨n, q, hq⟩ := hquery
  exact ⟨n, q, hq, f, hf, k, hq, hr⟩

end Answers

/-! ## The lists -/

section Lists

variable {ι : Type}

/-- The own profile lists the posts of its user, whose id it has in `opID`. -/
theorem Inv.ownOnly {s : System ι} (h : s.Inv False) {c : ι} {k : ℕ} {n : Node}
    (hn : s.At c k n) : n.screen.OwnOnly := by
  have hok := h.screens c k n hn
  obtain ⟨container, opener, user, screen⟩ := n
  cases screen
  case userProfile p =>
    intro post hpost
    obtain ⟨d, -, hd, -, hown⟩ := hok.2.posts post hpost
    rw [(AEPost.ofDocument_eq_ok.1 hd).2.1] at hown
    simpa using hown
  all_goals trivial

/-- The own profile has asked for the posts of its user. -/
theorem Inv.asksOwn {s : System ι} (h : s.Inv False) {f : Flight ι} {n : Node} (hf : f ∈ s.net)
    (hn : s.At f.client f.node n) : n.screen.AsksOwn f.request := by
  have hcalls := h.calls f hf
  have hok := h.screens _ _ _ hn
  generalize f.request = req at hcalls
  obtain ⟨container, opener, user, screen⟩ := n
  cases screen
  case userProfile p =>
    intro m q hq
    cases hcalls <;> cases hq
    case profilePosts nd o hnd ho =>
      cases Option.some.inj (hnd.symm.trans hn)
      cases ho.symm.trans hok.1
      exact ⟨rfl, rfl⟩
  all_goals trivial

/-- The contract of the lists. -/
def listsRead (ι : Type) : Contract ι where
  screen s scr := scr.ListsFrom s.Got
  call _ scr r := scr.Asks r
  answer _ _ _ := True

variable [DecidableEq ι] {s : System ι} {c : ι} {k : ℕ} {n : Node}

theorem listsRead_sound (ι : Type) [DecidableEq ι] : (listsRead ι).Sound where
  screen he h := h.mono fun _ _ _ => he.got
  call _ h := h
  answer _ h := h
  initial _ := trivial
  tabBar _ := trivial
  home _ := ⟨⟨_, .inl rfl, .inl rfl⟩, fun _ hr => Screen.asks_loadPosts _ hr⟩
  act {s c k n a env scr' es} hreach hn hscr _ hact := by
    have hinv : s.Inv False := reachable_inv (hreach.mono fun _ _ _ => False.elim)
    have hkind := (Screen.act_spec hact).1
    have hheading := Screen.act_heading hact
    refine ⟨Screen.act_listsFrom hact hscr (hinv.ownOnly hn),
      fun u r hr => hr.congr hkind hheading, fun e he => ?_⟩
    cases e with
    | request r => exact (Screen.act_asks hact he).congr hkind hheading
    | segue d =>
      intro env' scr'' es' hload
      obtain ⟨rs, hloaded, rfl⟩ := Screen.load_loaded hload
      exact ⟨Screen.listsFrom_of_loaded hloaded,
        fun r hr => Screen.asks_of_loaded hloaded (by simpa using hr)⟩
    | _ => trivial
  receive {s f r kb n env scr' es} hreach hkept hf hr hk hn hres := by
    have hinv : s.Inv False := reachable_inv (hreach.mono fun _ _ _ => False.elim)
    have hkind := Screen.receive_kind hres
    have hheading := Screen.receive_heading hres
    have hasks := hkept.call hf hn
    refine ⟨?_, fun u r hr => hr.congr hkind hheading, fun e he => ?_⟩
    · refine Screen.receive_listsFrom hres (hkept.screens _ _ _ hn) (hinv.ownOnly hn) hasks
        (hinv.asksOwn hf hn) fun ds hds => ?_
      exact got_of_reply hreach hf hk (hds ▸ hr)
    · cases e with
      | request r => exact (Screen.receive_asks hres he).congr hkind hheading
      | segue d => exact absurd he (Screen.segue_notMem_receive hres d)
      | _ => trivial
  serve _ _ _ _ := trivial

/-- The lists are made of answers that have been given. -/
theorem listsFrom_got (h : (machine ι).Reachable s) (hn : s.At c k n) :
    n.screen.ListsFrom s.Got :=
  ((listsRead_sound ι).kept h).screens c k n hn

/-- **The lists are snapshots of the store.** -/
theorem lists_are_snapshots (h : (machine ι).Reachable s) (hn : s.At c k n) :
    n.screen.ListsFrom s.WasTop :=
  (listsFrom_got h hn).mono fun _ _ _ hg => hg.wasTop h

/-- Mo approves Ann's post, and Ann refreshes her feed: this is call 9. -/
def refreshEvents : List (Event ℕ) :=
  pendingPostEvents ++ [.act 1 5 (.approve 0) {}, .serve 8 .success, .act 0 3 .refresh {}]

def approvedPostEvents : List (Event ℕ) := refreshEvents ++ answerEvents 9

theorem exists_approvedPost : ∃ (s : System ℕ) (n : Node), (machine ℕ).Reachable s ∧ s.At 0 3 n ∧
    (n.screen.listing.any fun l => l.postsToShow.items.map AEPost.id = ["post"]) = true := by
  obtain ⟨s, hs, hp⟩ := (machine ℕ).exists_of_run (start annMoAndMax) approvedPostEvents
    (fun s => (s.clients 0).nodes[3]?.any fun n =>
      n.screen.listing.any fun l => l.postsToShow.items.map AEPost.id = ["post"])
    (by decide +kernel)
  obtain ⟨n, hn, hp⟩ := (Option.any_eq_true _ _).1 hp
  exact ⟨s, n, hs.reachable (reachable_start _), hn, hp⟩

theorem lists_are_snapshots_home : ∃ (s : System ℕ) (n : Node), s.At 0 3 n ∧
    (n.screen.listing.any fun l => l.postsToShow.items.map AEPost.id = ["post"]) = true ∧
      n.screen.ListsFrom s.WasTop := by
  obtain ⟨s, n, hs, hn, hp⟩ := exists_approvedPost
  exact ⟨s, n, hn, hp, lists_are_snapshots hs hn⟩

/-- Answers to query `q`, one after the other, each ranked as the query ranks. -/
def InParts (s : System ι) (q : Query) (posts : List AEPost) : Prop :=
  ∃ parts : List (List AEPost), posts = parts.flatten ∧ ∀ part ∈ parts,
    q.Ranked AEPost.id AEPost.time part ∧
      ∃ ds, s.WasTop .posts q ds ∧ decodeAll AEPost.ofDocument ds = .ok part

/-- The lists as their users see them: Home an answer to the query of a feed, ranked, and in the
category of the feed; the comments ranked, and all on the post; a profile answer after answer, each
of them ranked, and all by its user; the two moderation lists ranked. -/
def InRank (s : System ι) : Screen → Prop
  | .home h => ∃ q, Screen.IsFeed q ∧
    Screen.Whole s.WasTop .posts q AEPost.ofDocument h.listing.postsToShow.items ∧
      q.Ranked AEPost.id AEPost.time h.listing.postsToShow.items ∧
        ∀ c, .arrayContains "categories" c ∈ q.filters →
          ∀ post ∈ h.listing.postsToShow.items, c ∈ post.categories
  | .otherProfile p =>
    s.InParts (OtherProfileViewController.approvedPostsBy p.otherUserID)
      p.listing.postsToShow.items ∧
        ∀ post ∈ p.listing.postsToShow.items, post.opID = p.otherUserID
  | .userProfile p =>
    s.InParts (UserProfileViewController.postsBy p.listing.opID) p.listing.postsToShow.items ∧
      ∀ post ∈ p.listing.postsToShow.items, post.opID = p.listing.opID
  | .comments v =>
    (CommentsViewController.approvedComments v.postID).Ranked Comment.commentID Comment.time
      v.commentsToShow.items ∧ ∀ x ∈ v.commentsToShow.items, x.postID = v.postID
  | .moderationPosts l => (pendingQuery 15).Ranked AEPost.id AEPost.time l.items
  | .moderationComments l => (pendingQuery 20).Ranked Comment.commentID Comment.time l.items
  | _ => True

/-- What is read from a query's answer satisfies its filters. -/
theorem WasTop.matches {n : CollectionName} {q : Query} {ds : List Document} (h : s.WasTop n q ds)
    {d : Document} (hd : d ∈ ds) {flt : Filter} (hf : flt ∈ q.filters) : flt.Matches d := by
  obtain ⟨u, -, es, rfl, htop⟩ := h
  obtain ⟨e, he, rfl⟩ := List.mem_map.1 hd
  exact (Collection.mem_selected.1 (htop.selected e he)).2.1 flt hf

theorem forall₂_decodeAll {α : Type} {decode : Document → Except Fault α} {ds : List Document}
    {xs : List α} (h : decodeAll decode ds = .ok xs) :
    List.Forall₂ (fun d x => decode d = .ok x) ds xs := by
  induction ds generalizing xs with
  | nil =>
    cases h
    exact .nil
  | cons d ds ih =>
    simp only [decodeAll, bind_eq_ok, pure_eq_ok] at h
    obtain ⟨y, hy, ys, hys, rfl⟩ := h
    exact .cons hy (ih hys)

/-- What a reader makes of a snapshot is ranked as the query ranks it. -/
theorem ranked_of_whole {α : Type} {n : CollectionName} {q : Query}
    {decode : Document → Except Fault α} {id : α → String} {time : α → ℕ} {items : List α}
    (hq : q.orderBy = "time") (h : Screen.Whole s.WasTop n q decode items)
    (hread : ∀ (u : System ι) (i : String) (d : Document) (x : α), u.Inv False →
      u.DocumentOK False n i d → decode d = .ok x →
      id x = i ∧ d "time" = some (.timestamp (time x))) : q.Ranked id time items := by
  rcases h with rfl | ⟨ds, ⟨u, hu, es, rfl, htop⟩, hdec⟩
  · exact ⟨Nat.zero_le _, List.nodup_nil, .nil⟩
  refine htop.ranked ?_
  have hinv := hu.inv
  have hstored : ∀ e ∈ es, u.DocumentOK False n e.1 e.2 := fun e he =>
    hinv.stored n e.1 e.2 (Collection.mem_selected.1 (htop.selected e he)).1
  have hforall := (List.forall₂_and_left _ _).2
    ⟨hstored, List.forall₂_map_left_iff.1 (forall₂_decodeAll hdec)⟩
  refine hforall.imp fun e x hx => ?_
  obtain ⟨hid, htime⟩ := hread u e.1 e.2 x hinv hx.1 hx.2
  exact ⟨hid, by rw [hq, Document.time, htime]⟩

omit [DecidableEq ι] in
theorem read_post (u : System ι) (i : String) (d : Document) (post : AEPost) (hinv : u.Inv False)
    (hd : u.DocumentOK False .posts i d) (hpost : AEPost.ofDocument d = .ok post) :
    post.id = i ∧ d "time" = some (.timestamp post.time) := by
  obtain ⟨-, -, -, -, -, -, -, htime, -⟩ := AEPost.ofDocument_eq_ok.1 hpost
  exact ⟨hinv.id_eq hd hpost, htime⟩

omit [DecidableEq ι] in
theorem read_comment {b : Bool} (u : System ι) (i : String) (d : Document) (x : Comment)
    (hinv : u.Inv False) (hd : u.DocumentOK False .comments i d)
    (hx : Comment.ofDocument b d = .ok x) :
    x.commentID = i ∧ d "time" = some (.timestamp x.time) := by
  obtain ⟨-, -, -, -, -, htime, -⟩ := Comment.ofDocument_eq_ok.1 hx
  exact ⟨hinv.commentID_eq hd hx, htime⟩

/-- The answers that a profile lists one after the other. -/
theorem inParts_of_appended {q : Query} {posts : List AEPost} {o : String}
    (hq : q.orderBy = "time") (hop : .isEqualTo "opID" (.string o) ∈ q.filters)
    (h : Screen.Appended s.WasTop .posts q AEPost.ofDocument posts) :
    s.InParts q posts ∧ ∀ post ∈ posts, post.opID = o := by
  obtain ⟨parts, rfl, hparts⟩ := h
  refine ⟨⟨parts, rfl, fun part hpart => ⟨?_, hparts part hpart⟩⟩, fun post hpost => ?_⟩
  · exact ranked_of_whole hq (.inr (hparts part hpart)) read_post
  · obtain ⟨part, hpart, hmem⟩ := List.mem_flatten.1 hpost
    obtain ⟨ds, hds, hdec⟩ := hparts part hpart
    obtain ⟨d, hd, hread⟩ := mem_decodeAll hdec hmem
    have hmatch := hds.matches hd hop
    rw [Filter.Matches, (AEPost.ofDocument_eq_ok.1 hread).2.1] at hmatch
    simpa using hmatch

/-- **The lists are in order** on every screen of every device. -/
theorem lists_in_order (h : (machine ι).Reachable s) (hn : s.At c k n) : s.InRank n.screen := by
  have hlists := (listsFrom_got h hn).mono fun _ _ _ hg => hg.wasTop h
  cases hscr : n.screen <;> rw [hscr] at hlists
  case home v =>
    obtain ⟨q, hq, hw⟩ := hlists
    have horder : q.orderBy = "time" := by
      rcases hq with rfl | ⟨c, rfl⟩ <;> rfl
    refine ⟨q, hq, hw, ranked_of_whole horder hw read_post, fun c hc post hpost => ?_⟩
    rcases hw with hnil | ⟨ds, hds, hdec⟩
    · rw [hnil] at hpost
      cases hpost
    · obtain ⟨d, hd, hread⟩ := mem_decodeAll hdec hpost
      have hmatch := hds.matches hd hc
      rw [Filter.Matches, (AEPost.ofDocument_eq_ok.1 hread).2.2.2.1] at hmatch
      exact hmatch
  case otherProfile p => exact inParts_of_appended rfl List.mem_cons_self hlists
  case userProfile p => exact inParts_of_appended rfl List.mem_cons_self hlists
  case comments v =>
    refine ⟨ranked_of_whole rfl hlists read_comment, fun x hx => ?_⟩
    rcases hlists with hnil | ⟨ds, hds, hdec⟩
    · rw [hnil] at hx
      cases hx
    · obtain ⟨d, hd, hread⟩ := mem_decodeAll hdec hx
      have hmatch := hds.matches hd List.mem_cons_self
      rw [Filter.Matches, (Comment.ofDocument_eq_ok.1 hread).2.2.2.2.1] at hmatch
      simpa using hmatch
  case moderationPosts l =>
    obtain ⟨xs, hw, hsub⟩ := hlists
    exact (ranked_of_whole rfl hw read_post).sublist hsub
  case moderationComments l =>
    obtain ⟨xs, hw, hsub⟩ := hlists
    exact (ranked_of_whole rfl hw read_comment).sublist hsub
  all_goals trivial

theorem lists_in_order_home : ∃ (s : System ℕ) (n : Node), s.At 0 3 n ∧
    (n.screen.listing.any fun l => l.postsToShow.items.map AEPost.id = ["post"]) = true ∧
      s.InRank n.screen := by
  obtain ⟨s, n, hs, hn, hp⟩ := exists_approvedPost
  exact ⟨s, n, hn, hp, lists_in_order hs hn⟩

end Lists

end System

end ArtsExplorer
