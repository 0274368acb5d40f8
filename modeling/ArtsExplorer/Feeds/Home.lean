import ArtsExplorer.Foundations.Machine
import ArtsExplorer.App.Decoding

/-!
# The home feed

`homeFeed` is a home screen from `viewDidLoad` on, with the queries it has issued and their answers.
The user opens the menu, chooses rows of it and pulls to refresh; each query is answered once, and
the answers come in any order.

The array is replaced by every successful answer, so it shows the one that came last, which need not
be the answer to the query that was issued last (`feed_shows_latest`, `feed_overtaken`). A refresh
repeats the category that was chosen last, and `didSelectMenuItem` forgets to reset it for "home"
(`refresh_reloads`, `refresh_after_home`).
-/

namespace ArtsExplorer

open Foundations

/-- The queries among some effects. -/
def issued (es : List Effect) : List Query :=
  es.filterMap fun
    | .request (.getDocuments _ q _) => some q
    | _ => none

/-- A home screen with the history of its feed. -/
structure HomeFeed where
  screen : HomeViewController
  /-- The queries issued so far, in order, with their answers. -/
  calls : List (Query × Option (Except String (List Document)))
  /-- The query that the most recent selection of a feed issued. -/
  feed : Query
  /-- The feeds selected so far, the newest first; the initial load is a selection of "home". -/
  selections : List String
  fault : Option Fault := none

namespace HomeFeed

inductive Event
  | tappedMenu (env : Env)
  /-- The answer to the menu's read of the user document. -/
  | menuReplied (document : Option Document)
  | didSelectMenuRow (env : Env) (row : ℕ)
  | refresh
  /-- Query `i` is answered. -/
  | replied (i : ℕ) (r : Except String (List Document))

variable (s : HomeFeed)

/-- The screen after `viewDidLoad()`. -/
def viewDidLoad : HomeFeed where
  screen := HomeViewController.viewDidLoad.1
  calls := (issued HomeViewController.viewDidLoad.2).map fun q => (q, none)
  feed := HomeViewController.approvedPosts
  selections := ["home"]

/-- The result of a handler. -/
def after : Except Fault (After HomeViewController) → HomeFeed
  | .error f => { s with fault := some f }
  | .ok (screen, es) =>
    { s with screen := screen, calls := s.calls ++ (issued es).map fun q => (q, none) }

/-- The result of a selection of the menu: it selects a feed if it issues a query. -/
def select (chosen : String) (r : After HomeViewController) : HomeFeed :=
  match issued r.2 with
  | [] => s.after (.ok r)
  | q :: _ => { s.after (.ok r) with feed := q, selections := chosen :: s.selections }

/-- What an event does while the process runs. -/
def react : Event → Option HomeFeed
  | .tappedMenu env => some (s.after (s.screen.tappedMenu env))
  | .menuReplied document =>
    if s.screen.leftMenu.isViewLoaded then
      some (s.after ((s.screen.leftMenu.viewDidLoadReply document).map fun r =>
        ({ s.screen with leftMenu := r.1 }, r.2)))
    else none
  | .didSelectMenuRow env row =>
    match s.screen.leftMenu.menuListItems[row]?, s.screen.didSelectMenuRow env row with
    | some item, some r => some (s.select (lowercased item) r)
    | _, _ => none
  | .refresh => some (s.after (.ok (s.screen, s.screen.reloadPosts)))
  | .replied i r =>
    match s.calls[i]? with
    | some (q, none) =>
      some ({ s with calls := s.calls.set i (q, some r) }.after (s.screen.loadPostsReply r))
    | _ => none

def step (e : Event) : Option HomeFeed := if s.fault = none then s.react e else none

end HomeFeed

/-- The machine of a home screen. -/
def homeFeed : Machine HomeFeed HomeFeed.Event where
  Initial s := s = HomeFeed.viewDidLoad
  step := HomeFeed.step

namespace HomeFeed

variable {s t : HomeFeed} {e : Event}

/-! ## The steps -/

/-- The query that a selection of the menu issues. -/
def queryOf (chosen : String) : Query :=
  if chosen = "home" then HomeViewController.approvedPosts
    else HomeViewController.approvedPostsOf chosen

/-- The two contents of the menu, and the menu before it is filled. -/
def menus : List (List String) :=
  [[], ["Home", "Art", "Drama", "Film", "Music", "Moderation", "Log out"],
   ["Home", "Art", "Drama", "Film", "Music", "Log out"]]

/-- What a step does. -/
inductive Outcome (s : HomeFeed) : Event → HomeFeed → Prop
  | fault {e : Event} (f : Fault) (calls : List (Query × Option (Except String (List Document)))) :
      Outcome s e { s with calls := calls, fault := some f }
  | menu {e : Event} (leftMenu : MenuListController) (hr : ∀ i ds, e ≠ .replied i (.ok ds))
      (hitems : leftMenu.menuListItems ∈ s.screen.leftMenu.menuListItems :: menus) :
      Outcome s e { s with screen := { s.screen with leftMenu := leftMenu } }
  | other (env : Env) (row : ℕ) : Outcome s (.didSelectMenuRow env row) s
  | selected (env : Env) (row : ℕ) (item : String)
      (hitem : s.screen.leftMenu.menuListItems[row]? = some item) :
      Outcome s (.didSelectMenuRow env row)
        { s with
          screen :=
            if lowercased item = "home" then s.screen
            else { s.screen with currentCategory := lowercased item }
          calls := s.calls ++ [(queryOf (lowercased item), none)]
          feed := queryOf (lowercased item)
          selections := lowercased item :: s.selections }
  | refreshed : Outcome s .refresh
      { s with calls := s.calls ++ (issued s.screen.reloadPosts).map fun q => (q, none) }
  | failed (i : ℕ) (q : Query) (err : String) (hi : s.calls[i]? = some (q, none)) :
      Outcome s (.replied i (.error err)) { s with calls := s.calls.set i (q, some (.error err)) }
  | loaded (i : ℕ) (q : Query) (ds : List Document) (listing : PostListing)
      (hi : s.calls[i]? = some (q, none))
      (hposts : decodeAll AEPost.ofDocument ds = .ok listing.postsToShow.items) :
      Outcome s (.replied i (.ok ds))
        { s with
          screen := { s.screen with listing := listing }
          calls := s.calls.set i (q, some (.ok ds)) }

theorem select_outcome {env : Env} {row : ℕ} {item : String}
    (hitem : s.screen.leftMenu.menuListItems[row]? = some item) :
    s.Outcome (.didSelectMenuRow env row)
      (s.select (lowercased item) (s.screen.didSelectMenuItem env (lowercased item))) := by
  have hsel := Outcome.selected (s := s) env row item hitem
  unfold HomeViewController.didSelectMenuItem
  split_ifs with hmod hout hhome
  · simpa [select, issued, after] using Outcome.other (s := s) env row
  · split <;> simpa [select, issued, after] using Outcome.other (s := s) env row
  · simpa [select, issued, after, HomeViewController.loadPosts, queryOf, hhome] using hsel
  · simpa [select, issued, after, HomeViewController.loadSpecificPosts, queryOf, hhome] using hsel

theorem step_cases (h : s.step e = some t) : s.fault = none ∧ s.Outcome e t := by
  unfold step at h
  split_ifs at h with hf
  refine ⟨hf, ?_⟩
  cases e with
  | tappedMenu env =>
    cases h
    unfold HomeViewController.tappedMenu
    split_ifs
    · simpa [after, issued] using Outcome.menu (s := s) (e := .tappedMenu env) s.screen.leftMenu
        (by simp) List.mem_cons_self
    · cases hu : env.uid with
      | error f =>
        simpa [after, MenuListController.viewDidLoad, hu, bind, Except.bind] using
          Outcome.fault (s := s) (e := .tappedMenu env) f s.calls
      | ok u =>
        simpa [after, issued, MenuListController.viewDidLoad, hu, bind, Except.bind, pure,
          Except.pure] using Outcome.menu (s := s) (e := .tappedMenu env)
            { s.screen.leftMenu with isViewLoaded := true } (by simp) List.mem_cons_self
  | menuReplied document =>
    simp only [react] at h
    split_ifs at h
    cases h
    cases document with
    | none =>
      simpa [after, issued, MenuListController.viewDidLoadReply, Except.map] using
        Outcome.menu (s := s) (e := .menuReplied none) s.screen.leftMenu (by simp)
          List.mem_cons_self
    | some d =>
      cases hm : getBool d "mod" with
      | error f =>
        simpa [after, MenuListController.viewDidLoadReply, hm, bind, Except.bind, Except.map] using
          Outcome.fault (s := s) (e := .menuReplied (some d)) f s.calls
      | ok mod =>
        have hmenu (items : List String) (hitems : items ∈ menus) :=
          Outcome.menu (s := s) (e := .menuReplied (some d))
            { s.screen.leftMenu with userIsMod := mod, menuListItems := items } (by simp)
            (List.mem_cons_of_mem _ hitems)
        cases mod <;>
          simpa [after, issued, MenuListController.viewDidLoadReply, hm, bind, Except.bind, pure,
            Except.pure, Except.map] using hmenu _ (by simp [menus])
  | didSelectMenuRow env row =>
    simp only [react] at h
    split at h
    · next item r hitem hr =>
      cases h
      rw [HomeViewController.didSelectMenuRow, hitem] at hr
      cases hr
      exact select_outcome hitem
    · cases h
  | refresh =>
    cases h
    exact .refreshed
  | replied i r =>
    simp only [react] at h
    split at h
    · next q hi =>
      cases h
      cases r with
      | error err =>
        simpa [after, issued, HomeViewController.loadPostsReply] using Outcome.failed i q err hi
      | ok ds =>
        cases hl : s.screen.listing.removeAll.showAll ds with
        | error f =>
          simpa [after, HomeViewController.loadPostsReply, hl, bind, Except.bind] using
            Outcome.fault (s := s) (e := .replied i (.ok ds)) f _
        | ok listing =>
          obtain ⟨posts, hposts, hitems⟩ := PostListing.showAll_items hl
          have hshown : listing.postsToShow.items = posts := hitems
          have hloaded := Outcome.loaded i q ds listing hi (hshown ▸ hposts)
          by_cases hempty : listing.postsToShow.items = [] <;>
            simpa [after, issued, HomeViewController.loadPostsReply, hl, bind, Except.bind, pure,
              Except.pure, hempty] using hloaded
    · cases h

/-! ## The selected feed -/

/-- The category that was chosen last. -/
def lastCategory (selections : List String) : String :=
  (selections.find? fun x => decide (x ≠ "home")).getD ""

/-- What the screen remembers of the selections. -/
structure Remembers (s : HomeFeed) : Prop where
  items : s.screen.leftMenu.menuListItems ∈ menus
  named : ∀ x ∈ s.selections, x ≠ ""
  feed : ∃ chosen rest, s.selections = chosen :: rest ∧ s.feed = queryOf chosen
  category : s.screen.currentCategory = lastCategory s.selections

theorem lowercased_ne_empty {items : List String} (h : items ∈ menus) :
    ∀ item ∈ items, lowercased item ≠ "" := by
  revert items
  decide

/-- A step keeps what the screen remembers. -/
theorem Remembers.step (h : s.Remembers) (hs : s.step e = some t) : t.Remembers := by
  obtain ⟨-, ho⟩ := step_cases hs
  cases ho with
  | menu leftMenu hr hitems =>
    refine ⟨?_, h.named, h.feed, h.category⟩
    rcases List.mem_cons.1 hitems with heq | hmem
    · exact heq ▸ h.items
    · exact hmem
  | selected env row item hitem =>
    have hne : lowercased item ≠ "" := lowercased_ne_empty h.items item (List.mem_of_getElem? hitem)
    refine ⟨?_, ?_, ⟨_, _, rfl, rfl⟩, ?_⟩
    · dsimp only
      split_ifs <;> exact h.items
    · intro x hx
      rcases List.mem_cons.1 hx with rfl | hx
      · exact hne
      · exact h.named x hx
    · by_cases hhome : lowercased item = "home"
      · simpa [lastCategory, hhome] using h.category
      · simp [lastCategory, hhome]
  | _ => exact ⟨h.items, h.named, h.feed, h.category⟩

theorem remembers_viewDidLoad : viewDidLoad.Remembers where
  items := by decide
  named := by decide
  feed := ⟨"home", [], rfl, rfl⟩
  category := rfl

/-- A refresh issues the query of the most recent selection. -/
def ReloadsFeed (s : HomeFeed) : Prop :=
  s.screen.reloadPosts = [.request (.getDocuments .posts s.feed .homePosts)]

/-- The most recent selection is a category, or no category has ever been selected. -/
def OnLastCategory (s : HomeFeed) : Prop :=
  s.selections.head? ≠ some "home" ∨ ∀ x ∈ s.selections, x = "home"

/-- A refresh issues the query of the last category, if there is one. -/
theorem Remembers.reloadPosts (h : s.Remembers) :
    s.screen.reloadPosts = [.request (.getDocuments .posts
      (if lastCategory s.selections = "" then HomeViewController.approvedPosts
        else HomeViewController.approvedPostsOf (lastCategory s.selections)) .homePosts)] := by
  unfold HomeViewController.reloadPosts
  rw [h.category]
  split_ifs <;> rfl

theorem lastCategory_eq_empty {selections : List String} (h : ∀ x ∈ selections, x ≠ "") :
    lastCategory selections = "" ↔ ∀ x ∈ selections, x = "home" := by
  unfold lastCategory
  cases hf : selections.find? fun x => decide (x ≠ "home") with
  | none =>
    refine iff_of_true rfl fun x hx => ?_
    simpa using List.find?_eq_none.1 hf x hx
  | some c =>
    have hc : c ≠ "home" := by simpa using List.find?_some hf
    refine iff_of_false (h c (List.mem_of_find?_eq_some hf)) fun hall => ?_
    exact hc (hall c (List.mem_of_find?_eq_some hf))

theorem Remembers.reloadsFeed_iff (h : s.Remembers) : s.ReloadsFeed ↔ s.OnLastCategory := by
  obtain ⟨chosen, rest, hsel, hfeed⟩ := h.feed
  have hempty := lastCategory_eq_empty h.named
  unfold ReloadsFeed OnLastCategory
  rw [h.reloadPosts, hfeed, ← hempty, hsel]
  by_cases hhome : chosen = "home"
  · -- the two queries differ in the number of their filters
    subst hhome
    split_ifs with hlast <;>
      simp [hlast, queryOf, HomeViewController.approvedPosts, HomeViewController.approvedPostsOf]
  · have hlast : lastCategory (chosen :: rest) = chosen := by simp [lastCategory, hhome]
    have hne : chosen ≠ "" := h.named chosen (hsel ▸ List.mem_cons_self)
    simp [hlast, hne, queryOf, hhome]

/-- **A refresh reloads the selected feed** as long as no refresh comes when "home" has been
selected after a category. -/
theorem refresh_reloads {es : List Event} {t : HomeFeed} :
    homeFeed.Steps (fun s e => e = .refresh → s.ReloadsFeed) viewDidLoad es t ↔
      homeFeed.Steps (fun s e => e = .refresh → s.OnLastCategory) viewDidLoad es t := by
  constructor
  · intro h
    refine h.congr remembers_viewDidLoad fun s e s' hi hs hC => ⟨fun he => ?_, hi.step hs⟩
    exact hi.reloadsFeed_iff.1 (hC he)
  · intro h
    refine h.congr remembers_viewDidLoad fun s e s' hi hs hC => ⟨fun he => ?_, hi.step hs⟩
    exact hi.reloadsFeed_iff.2 (hC he)

/-- Art, then home, then a refresh. -/
def homeAfterArt : List Event :=
  [.tappedMenu { currentUser := some "ann" },
   .menuReplied (some (.ofFields (userDocument "ann" "Ann"))),
   .didSelectMenuRow {} 1, .didSelectMenuRow {} 0]

/-- **A refresh after "home" reloads the category** that was selected before it. -/
theorem refresh_after_home : ∃ s, homeFeed.Steps (fun _ _ => True) viewDidLoad homeAfterArt s ∧
    s.feed = HomeViewController.approvedPosts ∧
      s.screen.reloadPosts = HomeViewController.loadSpecificPosts "art" := by
  obtain ⟨s, hs, hp⟩ := homeFeed.exists_of_run viewDidLoad homeAfterArt
    (fun s => decide (s.feed = HomeViewController.approvedPosts ∧
      s.screen.reloadPosts = HomeViewController.loadSpecificPosts "art")) (by decide +kernel)
  exact ⟨s, hs, of_decide_eq_true hp⟩

/-! ## The posts on the screen -/

/-- The successful answer that an event delivers, with the number of its query. -/
def answer (_ : HomeFeed) : Event → List (ℕ × List Document)
  | .replied i (.ok ds) => [(i, ds)]
  | _ => []

theorem answer_eq_nil (h : ∀ i ds, e ≠ .replied i (.ok ds)) : s.answer e = [] := by
  unfold answer
  split
  · next i ds => exact absurd rfl (h i ds)
  · rfl

/-- The answer to the last query, once no query is outstanding, if it is a success. -/
def settled (s : HomeFeed) : Option (List Document) :=
  if s.fault = none ∧ ∀ call ∈ s.calls, call.2.isSome then
    match s.calls.getLast? with
    | some (_, some (.ok ds)) => some ds
    | _ => none
  else none

theorem settled_eq_some {ds : List Document} (h : s.settled = some ds) :
    s.fault = none ∧ ∃ q, s.calls.getLast? = some (q, some (.ok ds)) := by
  unfold settled at h
  split_ifs at h with hset
  refine ⟨hset.1, ?_⟩
  split at h
  · next q ds' hlast =>
    cases h
    exact ⟨q, hlast⟩
  · cases h

/-- The screen shows the posts of the last query. -/
def ShowsLatest (s : HomeFeed) : Prop :=
  ∀ ds ∈ s.settled, decodeAll AEPost.ofDocument ds = .ok s.screen.listing.postsToShow.items

/-- The last successful answer is that of the last query, or has the same posts. -/
def LatestIsLast (s : HomeFeed) (l : List (ℕ × List Document)) : Prop :=
  ∀ ds ∈ s.settled, ∃ i ds', l.getLast? = some (i, ds') ∧
    (i + 1 = s.calls.length ∨ decodeAll AEPost.ofDocument ds' = decodeAll AEPost.ofDocument ds)

instance (s : HomeFeed) : Decidable s.ShowsLatest := by
  unfold ShowsLatest
  infer_instance

/-- What the screen shows is the answer that came last. -/
structure Shows (l : List (ℕ × List Document)) (s : HomeFeed) : Prop where
  shown : ∀ i ds, l.getLast? = some (i, ds) →
    decodeAll AEPost.ofDocument ds = .ok s.screen.listing.postsToShow.items ∧
      ∃ q, s.calls[i]? = some (q, some (.ok ds))
  unanswered : l = [] → ∀ call ∈ s.calls, ∀ ds, call.2 ≠ some (.ok ds)

variable {l : List (ℕ × List Document)}

/-- New queries are outstanding. -/
theorem Shows.issue (h : s.Shows l) {qs : List Query}
    (hcalls : t.calls = s.calls ++ qs.map fun q => (q, none))
    (hlist : t.screen.listing = s.screen.listing) : t.Shows l := by
  refine ⟨fun i ds hl => ?_, fun hl call hc ds => ?_⟩
  · obtain ⟨hposts, q, hi⟩ := h.shown i ds hl
    refine ⟨hlist ▸ hposts, q, ?_⟩
    rw [hcalls, List.getElem?_append_left (List.getElem?_eq_some_iff.1 hi).1]
    exact hi
  · rw [hcalls] at hc
    rcases List.mem_append.1 hc with hc | hc
    · exact h.unanswered hl call hc ds
    · obtain ⟨q, -, rfl⟩ := List.mem_map.1 hc
      simp

theorem Shows.step (h : s.Shows l) (hs : s.step e = some t) (ht : t.fault = none) :
    t.Shows (l ++ s.answer e) := by
  obtain ⟨hf, ho⟩ := step_cases hs
  cases ho with
  | fault f calls => cases ht
  | menu leftMenu hr hitems =>
    rw [answer_eq_nil hr, List.append_nil]
    exact ⟨h.shown, h.unanswered⟩
  | other env row =>
    rw [answer_eq_nil (by simp), List.append_nil]
    exact h
  | selected env row item hitem =>
    rw [answer_eq_nil (by simp), List.append_nil]
    refine @Shows.issue s _ l h [queryOf (lowercased item)] rfl ?_
    dsimp only
    split_ifs <;> rfl
  | refreshed =>
    rw [answer_eq_nil (by simp), List.append_nil]
    exact h.issue rfl rfl
  | failed i q err hi =>
    rw [answer_eq_nil (by simp), List.append_nil]
    refine ⟨fun j ds hl => ?_, fun hl call hc ds => ?_⟩
    · obtain ⟨hposts, q', hj⟩ := h.shown j ds hl
      refine ⟨hposts, q', ?_⟩
      rw [List.getElem?_set_ne]
      · exact hj
      · rintro rfl
        rw [hi] at hj
        cases hj
    · rcases List.mem_or_eq_of_mem_set hc with hc | rfl
      · exact h.unanswered hl call hc ds
      · simp
  | loaded i q ds listing hi hposts =>
    refine ⟨fun j ds' hl => ?_, fun hl => ?_⟩
    · rw [answer, List.getLast?_append_of_ne_nil _ (List.cons_ne_nil _ _)] at hl
      cases hl
      exact ⟨hposts, q, List.getElem?_set_self (List.getElem?_eq_some_iff.1 hi).1⟩
    · simp [answer] at hl

theorem shows_log {es : List Event} (h : homeFeed.Steps (fun _ _ => True) viewDidLoad es t) :
    t.fault = none → t.Shows (homeFeed.log answer viewDidLoad es) := by
  refine h.log_induct (I := fun l s => s.fault = none → s.Shows l) (.init rfl) (fun _ => ?_)
    fun l t e u _ ih _ hs hu => (ih (step_cases hs).1).step hs hu
  exact ⟨by simp, by simp [viewDidLoad, issued, HomeViewController.viewDidLoad,
    HomeViewController.loadPosts]⟩

/-- **The feed shows the posts of the last query** if and only if the answer to it comes last, or
the answer that does has the same posts. -/
theorem feed_shows_latest {es : List Event} {t : HomeFeed}
    (h : homeFeed.Steps (fun _ _ => True) viewDidLoad es t) :
    t.ShowsLatest ↔ t.LatestIsLast (homeFeed.log answer viewDidLoad es) := by
  refine forall_congr' fun ds => forall_congr' fun hset => ?_
  obtain ⟨hf, q, hlast⟩ := settled_eq_some hset
  have hshows := shows_log h hf
  -- some query has succeeded, so some answer came last
  have hne : homeFeed.log answer viewDidLoad es ≠ [] := fun hnil =>
    hshows.unanswered hnil _ (List.mem_of_getLast? hlast) ds rfl
  obtain ⟨⟨i, ds'⟩, hl⟩ := Option.isSome_iff_exists.1 (List.getLast?_isSome.2 hne)
  obtain ⟨hposts, q', hi⟩ := hshows.shown i ds' hl
  constructor
  · intro hds
    exact ⟨i, ds', hl, .inr (hposts.trans hds.symm)⟩
  · rintro ⟨j, ds'', hl', hsame⟩
    cases hl.symm.trans hl'
    rcases hsame with hidx | hsame
    · rw [List.getLast?_eq_getElem?, ← hidx, Nat.add_sub_cancel, hi] at hlast
      cases hlast
      exact hposts
    · exact hsame ▸ hposts

/-- A post of Ann's. -/
def annsPost (id title : String) (categories : List String) : Document :=
  .ofFields (postDocument id "ann" "Ann" categories "" title "" 0)

/-- Art is chosen while the first load is outstanding, and the first load is answered last. -/
def artOvertaken : List Event :=
  homeAfterArt.take 3 ++
  [.replied 1 (.ok [annsPost "1" "Sketch" ["art"]]),
   .replied 0 (.ok [annsPost "2" "Song" ["music"], annsPost "1" "Sketch" ["art"]])]

/-- **An answer that is overtaken** replaces the posts of the category that was chosen last. -/
theorem feed_overtaken : ∃ s, homeFeed.Steps (fun _ _ => True) viewDidLoad artOvertaken s ∧
    s.feed = HomeViewController.approvedPostsOf "art" ∧ ¬ s.ShowsLatest := by
  obtain ⟨s, hs, hp⟩ := homeFeed.exists_of_run viewDidLoad artOvertaken
    (fun s => decide (s.feed = HomeViewController.approvedPostsOf "art" ∧ ¬ s.ShowsLatest))
    (by decide +kernel)
  exact ⟨s, hs, of_decide_eq_true hp⟩

/-- The same answers in the order of their queries. -/
def artInOrder : List Event :=
  homeAfterArt.take 3 ++
  [.replied 0 (.ok [annsPost "2" "Song" ["music"], annsPost "1" "Sketch" ["art"]]),
   .replied 1 (.ok [annsPost "1" "Sketch" ["art"]])]

theorem feed_shows_latest_in_order : ∃ s : HomeFeed, s.settled.isSome ∧ s.ShowsLatest := by
  obtain ⟨s, hs, hp⟩ := homeFeed.exists_of_run viewDidLoad artInOrder
    (fun s => s.settled.isSome && decide (s.calls.length = 2)) (by decide +kernel)
  rw [Bool.and_eq_true, decide_eq_true_eq] at hp
  have hlog : ((homeFeed.log answer viewDidLoad artInOrder).getLast?.map Prod.fst) = some 1 := by
    decide +kernel
  obtain ⟨⟨i, ds'⟩, hl, rfl⟩ := Option.map_eq_some_iff.1 hlog
  exact ⟨s, hp.1, (feed_shows_latest hs).2 fun ds _ => ⟨_, ds', hl, .inl hp.2.symm⟩⟩

end HomeFeed

end ArtsExplorer
