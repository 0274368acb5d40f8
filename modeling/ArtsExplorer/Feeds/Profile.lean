import ArtsExplorer.App.UserProfileViewController
import ArtsExplorer.Feeds.Home

/-!
# The posts of a profile

`postsScreen L` is a screen with a loader `L` of posts from `viewDidLoad` on; the user pulls to
refresh, and the queries are answered in any order. `otherProfile` and `userProfile` are the loaders
of the two profile screens, `homePosts` that of the home screen, of which they are copies but for
the call of `removeAll()`.

The home screen shows the answer that came last (`home_lists_last`). A profile screen shows all
answers one after the other, so it shows the last one alone if and only if those before it were
empty (`profile_lists_last`); a refresh lists every post twice, also one that was deleted
(`profile_lists_twice`).
-/

namespace ArtsExplorer

open Foundations

/-! ## Decoding answers one after the other -/

section Decode

variable {α : Type} {decode : Document → Except Fault α} {ds ds' : List Document} {xs zs : List α}

theorem decodeAll_append_eq_ok :
    decodeAll decode (ds ++ ds') = .ok zs ↔
      ∃ xs ys, decodeAll decode ds = .ok xs ∧ decodeAll decode ds' = .ok ys ∧ zs = xs ++ ys := by
  induction ds generalizing zs with
  | nil => simp [decodeAll]
  | cons d ds ih =>
    simp only [List.cons_append, decodeAll, bind_eq_ok, pure_eq_ok, ih]
    constructor
    · rintro ⟨x, hx, _, ⟨xs, ys, hxs, hys, rfl⟩, rfl⟩
      exact ⟨x :: xs, ys, ⟨x, hx, xs, hxs, rfl⟩, hys, rfl⟩
    · rintro ⟨_, ys, ⟨x, hx, xs, hxs, rfl⟩, hys, rfl⟩
      exact ⟨x, hx, xs ++ ys, ⟨xs, ys, hxs, hys, rfl⟩, rfl⟩

theorem length_decodeAll (h : decodeAll decode ds = .ok xs) : xs.length = ds.length := by
  induction ds generalizing xs with
  | nil => cases h; rfl
  | cons d ds ih =>
    simp only [decodeAll, bind_eq_ok, pure_eq_ok] at h
    obtain ⟨x, -, ys, hys, rfl⟩ := h
    rw [List.length_cons, List.length_cons, ih hys]

end Decode

/-! ## Loaders -/

/-- A screen's list of posts with its loader. -/
structure PostsLoader (σ : Type) where
  listing : σ → PostListing
  /-- `loadPosts()`, also `reloadPosts(_:)`. -/
  loadPosts : σ → List Effect
  /-- The closure of `loadPosts()`. -/
  loadPostsReply : σ → Except String (List Document) → Except Fault (After σ)

def otherProfile : PostsLoader OtherProfileViewController where
  listing := OtherProfileViewController.listing
  loadPosts := OtherProfileViewController.loadPosts
  loadPostsReply := OtherProfileViewController.loadPostsReply

def userProfile : PostsLoader UserProfileViewController where
  listing := UserProfileViewController.listing
  loadPosts := UserProfileViewController.loadPosts
  loadPostsReply := UserProfileViewController.loadPostsReply

def homePosts : PostsLoader HomeViewController where
  listing := HomeViewController.listing
  loadPosts _ := HomeViewController.loadPosts
  loadPostsReply := HomeViewController.loadPostsReply

/-- A screen with its outstanding queries. -/
structure PostsScreen (σ : Type) where
  screen : σ
  outstanding : ℕ
  fault : Option Fault := none

namespace PostsScreen

variable {σ : Type} (L : PostsLoader σ)

inductive Event
  | reload
  | replied (r : Except String (List Document))

/-- The screen after `viewDidLoad()`. -/
def ofLoaded (x : After σ) : PostsScreen σ := { screen := x.1, outstanding := (issued x.2).length }

/-- What an event does while the process runs. -/
def react (s : PostsScreen σ) : Event → Option (PostsScreen σ)
  | .reload => some { s with outstanding := s.outstanding + (issued (L.loadPosts s.screen)).length }
  | .replied r =>
    if s.outstanding = 0 then none
    else
      match L.loadPostsReply s.screen r with
      | .error f => some { s with outstanding := s.outstanding - 1, fault := some f }
      | .ok (screen, es) =>
        some { s with screen := screen, outstanding := s.outstanding - 1 + (issued es).length }

def step (s : PostsScreen σ) (e : Event) : Option (PostsScreen σ) :=
  if s.fault = none then s.react L e else none

end PostsScreen

/-- The machine of a screen with loader `L`, as it is after `viewDidLoad()`. -/
def postsScreen {σ : Type} (L : PostsLoader σ) (x : After σ) :
    Machine (PostsScreen σ) PostsScreen.Event where
  Initial s := s = .ofLoaded x
  step := PostsScreen.step L

namespace PostsScreen

variable {σ : Type} {L : PostsLoader σ} {x : After σ} {s t : PostsScreen σ} {e : Event}

/-- The successful answer that an event delivers. -/
def answer (_ : PostsScreen σ) : Event → List (List Document)
  | .replied (.ok ds) => [ds]
  | .replied (.error _) | .reload => []

/-- The posts on the screen. -/
def items (L : PostsLoader σ) (s : PostsScreen σ) : List AEPost :=
  (L.listing s.screen).postsToShow.items

/-- The rule for the posts on the screen: they are kept but by a successful answer. -/
theorem items_induct {I : List (List Document) → List AEPost → Prop} {es : List Event}
    (h : (postsScreen L x).Steps (fun _ _ => True) (.ofLoaded x) es t)
    (init : I [] (items L (.ofLoaded x)))
    (failed : ∀ scr err scr' fx, L.loadPostsReply scr (.error err) = .ok (scr', fx) →
      (L.listing scr').postsToShow.items = (L.listing scr).postsToShow.items)
    (loaded : ∀ l scr ds scr' fx, I l (L.listing scr).postsToShow.items →
      L.loadPostsReply scr (.ok ds) = .ok (scr', fx) → I (l ++ [ds])
        (L.listing scr').postsToShow.items) :
    t.fault = none → I ((postsScreen L x).log answer (.ofLoaded x) es) (t.items L) := by
  refine h.log_induct (I := fun l s => s.fault = none → I l (s.items L)) (.init rfl) (fun _ => init)
    fun l s e u _ ih _ hs hu => ?_
  change step L s e = some u at hs
  unfold step at hs
  split_ifs at hs with hf
  cases e with
  | reload =>
    cases hs
    rw [answer, List.append_nil]
    exact ih hf
  | replied r =>
    simp only [react] at hs
    split_ifs at hs
    split at hs
    · cases hs
      cases hu
    · next scr' fx hr =>
      cases hs
      cases r with
      | error err =>
        rw [answer, List.append_nil, items, failed s.screen err scr' fx hr]
        exact ih hf
      | ok ds => exact loaded l s.screen ds scr' fx (ih hf) hr

/-! ## The two ways to show an answer -/

/-- A failed query leaves the list as it is, and an answer is appended to what `keep` keeps of
it. -/
structure Shows (L : PostsLoader σ) (keep : List AEPost → List AEPost) : Prop where
  failed : ∀ scr err scr' fx, L.loadPostsReply scr (.error err) = .ok (scr', fx) →
    (L.listing scr').postsToShow.items = (L.listing scr).postsToShow.items
  loaded : ∀ scr ds scr' fx, L.loadPostsReply scr (.ok ds) = .ok (scr', fx) →
    ∃ posts, decodeAll AEPost.ofDocument ds = .ok posts ∧
      (L.listing scr').postsToShow.items = keep (L.listing scr).postsToShow.items ++ posts

theorem otherProfile_shows : Shows otherProfile id where
  failed scr err scr' fx h := by
    cases h
    rfl
  loaded scr ds scr' fx h := by
    simp only [otherProfile, OtherProfileViewController.loadPostsReply, bind_eq_ok, pure_eq_ok,
      Prod.mk.injEq] at h
    obtain ⟨l, hl, rfl, -⟩ := h
    exact PostListing.showAll_items hl

theorem userProfile_shows : Shows userProfile id where
  failed scr err scr' fx h := by
    cases h
    rfl
  loaded scr ds scr' fx h := by
    simp only [userProfile, UserProfileViewController.loadPostsReply, bind_eq_ok, pure_eq_ok,
      Prod.mk.injEq] at h
    obtain ⟨l, hl, rfl, -⟩ := h
    exact PostListing.showAll_items hl

theorem homePosts_shows : Shows homePosts fun _ => [] where
  failed scr err scr' fx h := by
    cases h
    rfl
  loaded scr ds scr' fx h := by
    simp only [homePosts, HomeViewController.loadPostsReply, bind_eq_ok, pure_eq_ok,
      Prod.mk.injEq] at h
    obtain ⟨l, hl, rfl, -⟩ := h
    exact PostListing.showAll_items hl

/-- `es` is a run of the screen from `viewDidLoad()` to `t`. -/
abbrev Run (L : PostsLoader σ) (x : After σ) (es : List Event) (t : PostsScreen σ) : Prop :=
  (postsScreen L x).Steps (fun _ _ => True) (.ofLoaded x) es t

/-- The successful answers in a run, in the order in which they came. -/
abbrev answers (L : PostsLoader σ) (x : After σ) (es : List Event) : List (List Document) :=
  (postsScreen L x).log answer (.ofLoaded x) es

/-- The screen shows the posts of the last of some answers. -/
def ShowsLast (L : PostsLoader σ) (s : PostsScreen σ) (l : List (List Document)) : Prop :=
  s.fault = none → ∀ ds, l.getLast? = some ds → decodeAll AEPost.ofDocument ds = .ok (s.items L)

/-- None of some answers but the last had a post. -/
def EarlierEmpty (s : PostsScreen σ) (l : List (List Document)) : Prop :=
  s.fault = none → ∀ ds ∈ l.dropLast, ds = []

variable {es : List Event}

/-- **A loader that empties the list shows the last answer.** -/
theorem Shows.last (h : Shows L fun _ => []) (hrun : Run L x es t) :
    t.ShowsLast L (answers L x es) := by
  refine items_induct (I := fun l posts => ∀ ds, l.getLast? = some ds →
    decodeAll AEPost.ofDocument ds = .ok posts) hrun (fun ds hl => by cases hl) h.failed ?_
  intro l scr ds scr' fx _ hr ds' hl
  obtain ⟨posts, hposts, hitems⟩ := h.loaded scr ds scr' fx hr
  rw [List.getLast?_append_of_ne_nil _ (List.cons_ne_nil _ _)] at hl
  cases hl
  rw [hitems]
  exact hposts

/-- A loader that does not shows all answers, in the order in which they came. -/
theorem Shows.all (h : Shows L id) (hx : (L.listing x.1).postsToShow.items = [])
    (hrun : Run L x es t) (ht : t.fault = none) :
    decodeAll AEPost.ofDocument (answers L x es).flatten = .ok (t.items L) := by
  refine items_induct (I := fun l posts => decodeAll AEPost.ofDocument l.flatten = .ok posts) hrun
    ?_
    h.failed ?_ ht
  · rw [items, show (ofLoaded x).screen = x.1 from rfl, hx]
    rfl
  · intro l scr ds scr' fx ih hr
    obtain ⟨posts, hposts, hitems⟩ := h.loaded scr ds scr' fx hr
    rw [List.flatten_append, List.flatten_singleton, decodeAll_append_eq_ok]
    exact ⟨_, posts, ih, hposts, hitems⟩

theorem Shows.last_iff (h : Shows L id) (hx : (L.listing x.1).postsToShow.items = [])
    (hrun : Run L x es t) : t.ShowsLast L (answers L x es) ↔ t.EarlierEmpty (answers L x es) := by
  refine forall_congr' fun ht => ?_
  have hall := h.all hx hrun ht
  generalize answers L x es = l at hall ⊢
  rcases List.eq_nil_or_concat l with rfl | ⟨earlier, ds, rfl⟩
  · simp
  rw [List.concat_eq_append] at hall ⊢
  rw [List.flatten_append, List.flatten_singleton, decodeAll_append_eq_ok] at hall
  obtain ⟨pre, posts, hpre, hposts, hitems⟩ := hall
  have hlen := length_decodeAll hpre
  simp only [List.getLast?_append_of_ne_nil _ (List.cons_ne_nil ds []), List.getLast?_singleton,
    Option.some.injEq, forall_eq', List.dropLast_concat, hposts, hitems, Except.ok.injEq]
  -- nothing is listed before the last answer exactly when nothing came before it
  rw [← List.flatten_eq_nil_iff, ← List.length_eq_zero_iff, ← hlen]
  constructor
  · intro heq
    have hsum := congrArg List.length heq
    rw [List.length_append] at hsum
    omega
  · intro h0
    rw [List.length_eq_zero_iff.1 h0, List.nil_append]

/-! ## The three screens -/

/-- **The home screen shows the answer that came last.** -/
theorem home_lists_last {t : PostsScreen HomeViewController}
    (h : Run homePosts HomeViewController.viewDidLoad es t) :
    t.ShowsLast homePosts (answers homePosts HomeViewController.viewDidLoad es) :=
  homePosts_shows.last h

/-- **A profile shows the answer that came last** if and only if the answers before it were
empty. -/
theorem profile_lists_last (es : List Event) :
    (∀ otherUserID otherUserName t,
      Run otherProfile (OtherProfileViewController.viewDidLoad otherUserID otherUserName) es t →
        (t.ShowsLast otherProfile
            (answers otherProfile (OtherProfileViewController.viewDidLoad otherUserID otherUserName)
              es) ↔
          t.EarlierEmpty
            (answers otherProfile (OtherProfileViewController.viewDidLoad otherUserID otherUserName)
              es))) ∧
      ∀ env x t, UserProfileViewController.viewDidLoad env = .ok x → Run userProfile x es t →
        (t.ShowsLast userProfile (answers userProfile x es) ↔
          t.EarlierEmpty (answers userProfile x es)) := by
  refine ⟨fun otherUserID otherUserName t hrun => otherProfile_shows.last_iff rfl hrun,
    fun env x t hx hrun => userProfile_shows.last_iff ?_ hrun⟩
  simp only [UserProfileViewController.viewDidLoad, bind_eq_ok, pure_eq_ok] at hx
  obtain ⟨opID, -, rfl⟩ := hx
  rfl

/-- The ids of the posts on the screen. -/
def ids (L : PostsLoader σ) (s : PostsScreen σ) : List String := (s.items L).map AEPost.id

theorem ShowsLast.ids {l : List (List Document)} (h : s.ShowsLast L l) (hs : s.fault = none)
    {ds : List Document} (hl : l.getLast? = some ds) {posts : List AEPost}
    (hposts : decodeAll AEPost.ofDocument ds = .ok posts) : s.ids L = posts.map AEPost.id := by
  have hitems := (h hs ds hl).symm.trans hposts
  cases hitems
  rfl

/-- Ann's profile, as another user opens it. -/
def annsProfile : After OtherProfileViewController :=
  OtherProfileViewController.viewDidLoad "ann" "Ann"

/-- Ann's profile, as she opens it. -/
def ownProfile : After UserProfileViewController :=
  ({ listing := { opID := "ann" } },
   UserProfileViewController.loadPosts { listing := { opID := "ann" } } ++
     UserProfileViewController.loadInfo { listing := { opID := "ann" } })

/-- A load and a refresh, answered with the same post. -/
def loadTwice : List Event :=
  [.replied (.ok [HomeFeed.annsPost "1" "Sketch" []]), .reload,
   .replied (.ok [HomeFeed.annsPost "1" "Sketch" []])]

/-- A load and a refresh after the post has been deleted. -/
def loadDeleted : List Event :=
  [.replied (.ok [HomeFeed.annsPost "1" "Sketch" []]), .reload, .replied (.ok [])]

/-- **A refresh of a profile** lists a post twice, and a post that has been deleted still. -/
theorem profile_lists_twice :
    (∃ t, Run otherProfile annsProfile loadTwice t ∧ t.ids otherProfile = ["1", "1"] ∧
        ¬ t.ShowsLast otherProfile (answers otherProfile annsProfile loadTwice)) ∧
      ∃ t, Run userProfile ownProfile loadDeleted t ∧ t.ids userProfile = ["1"] ∧
        ¬ t.ShowsLast userProfile (answers userProfile ownProfile loadDeleted) := by
  constructor
  · obtain ⟨t, ht, hp⟩ :=
      (postsScreen otherProfile annsProfile).exists_of_run (.ofLoaded annsProfile)
      loadTwice (fun t => decide (t.fault = none ∧ t.ids otherProfile = ["1", "1"]))
        (by decide +kernel)
    obtain ⟨hf, hids⟩ := of_decide_eq_true hp
    refine ⟨t, ht, hids, fun hlast => ?_⟩
    have hone : t.ids otherProfile = ["1"] := hlast.ids hf rfl rfl
    rw [hids] at hone
    cases hone
  · obtain ⟨t, ht, hp⟩ := (postsScreen userProfile ownProfile).exists_of_run (.ofLoaded ownProfile)
      loadDeleted (fun t => decide (t.fault = none ∧ t.ids userProfile = ["1"])) (by decide +kernel)
    obtain ⟨hf, hids⟩ := of_decide_eq_true hp
    refine ⟨t, ht, hids, fun hlast => ?_⟩
    have hnil : t.ids userProfile = [] := hlast.ids hf rfl rfl
    rw [hids] at hnil
    cases hnil

/-- The first answer is shown on both screens. -/
theorem profile_lists_last_first :
    (∃ t : PostsScreen _,
      t.ShowsLast otherProfile (answers otherProfile annsProfile (loadTwice.take 2))) ∧
      ∃ t : PostsScreen _,
        t.ShowsLast userProfile (answers userProfile ownProfile (loadTwice.take 2)) := by
  obtain ⟨hother, huser⟩ := profile_lists_last (loadTwice.take 2)
  constructor
  · obtain ⟨t, ht, -⟩ :=
      (postsScreen otherProfile annsProfile).exists_of_run (.ofLoaded annsProfile)
      (loadTwice.take 2) (fun _ => true) (by decide +kernel)
    exact ⟨t, (hother "ann" "Ann" t ht).2 fun _ ds hds => by cases hds⟩
  · obtain ⟨t, ht, -⟩ := (postsScreen userProfile ownProfile).exists_of_run (.ofLoaded ownProfile)
      (loadTwice.take 2) (fun _ => true) (by decide +kernel)
    exact ⟨t, (huser { currentUser := some "ann" } ownProfile t rfl ht).2
      fun _ ds hds => by cases hds⟩

end PostsScreen

end ArtsExplorer
