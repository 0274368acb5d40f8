import ArtsExplorer.App.PostTableViewCell

/-!
# The home screen and its side menu

`HomeViewController` with the feed, and `MenuListController`, the side menu it owns: what the menu
offers is decided by the `mod` field of the user document read when the menu is first shown.
-/

namespace ArtsExplorer

open Foundations

structure MenuListController where
  isViewLoaded : Bool := false
  userIsMod : Bool := false
  menuListItems : List String := []
  deriving DecidableEq

namespace MenuListController

/-- `viewDidLoad()`. -/
def viewDidLoad (menu : MenuListController) (env : Env) : Except Fault (After MenuListController) :=
  do
    let currentUserID ← env.uid
    return ({ menu with isViewLoaded := true },
      [.request (.getDocument .users currentUserID .menu)])

/-- The closure of `viewDidLoad()`. -/
def viewDidLoadReply (menu : MenuListController) :
    Option Document → Except Fault (After MenuListController)
  | some document => do
    let userIsMod ← getBool document "mod"
    let menuListItems :=
      if userIsMod then ["Home", "Art", "Drama", "Film", "Music", "Moderation", "Log out"]
      else ["Home", "Art", "Drama", "Film", "Music", "Log out"]
    return ({ menu with userIsMod := userIsMod, menuListItems := menuListItems }, [])
  | none => .ok (menu, [.createAlert "Error" Constants.unknownUserError])

end MenuListController

structure HomeViewController where
  listing : PostListing := {}
  leftMenu : MenuListController := {}
  currentCategory : String := ""
  deriving DecidableEq

namespace HomeViewController

variable (s : HomeViewController)

/-- The query of `loadPosts()`. -/
def approvedPosts : Query :=
  { filters := [.isEqualTo "approved" (.bool true)], orderBy := "time", descending := true,
    limit := 15 }

/-- The query of `loadSpecificPosts(categoryChosen:)`. -/
def approvedPostsOf (categoryChosen : String) : Query :=
  { filters := [.isEqualTo "approved" (.bool true), .arrayContains "categories" categoryChosen],
    orderBy := "time", descending := true, limit := 15 }

/-- `loadPosts()`. -/
def loadPosts : List Effect := [.request (.getDocuments .posts approvedPosts .homePosts)]

/-- `loadSpecificPosts(categoryChosen:)`. -/
def loadSpecificPosts (categoryChosen : String) : List Effect :=
  [.request (.getDocuments .posts (approvedPostsOf categoryChosen) .homePosts)]

/-- The closure of `loadPosts()` and of `loadSpecificPosts(categoryChosen:)`. -/
def loadPostsReply : Except String (List Document) → Except Fault (After HomeViewController)
  | .error err => .ok (s, [.createAlert "Error" ("Error getting posts: " ++ err)])
  | .ok documents => do
    let listing ← s.listing.removeAll.showAll documents
    return ({ s with listing := listing },
      if listing.postsToShow.items.isEmpty then [.createAlert "Error" Constants.noPostsHereError]
      else [])

/-- `viewDidLoad()`. -/
def viewDidLoad : After HomeViewController := ({}, loadPosts)

/-- `didSelectMenuItem(chosen:)`. -/
def didSelectMenuItem (env : Env) (chosen : String) : After HomeViewController :=
  if chosen = "moderation" then (s, [.segue .moderation])
  else if chosen = "log out" then
    (s,
      (match env.signOutError with
        | none => [.signOut]
        | some error => [.createAlert "Error" ("Error signing out: " ++ error)]) ++
      -- outside the `catch`: the initial screen is shown whether or not `signOut` succeeded
      [.presentInitial])
  else if chosen = "home" then (s, loadPosts)
  else ({ s with currentCategory := chosen }, loadSpecificPosts chosen)

/-- `reloadPosts(_:)`. -/
def reloadPosts : List Effect :=
  if s.currentCategory = "" then loadPosts else loadSpecificPosts s.currentCategory

/-- `tappedMenu()`: the menu's view is loaded the first time. -/
def tappedMenu (env : Env) : Except Fault (After HomeViewController) :=
  if s.leftMenu.isViewLoaded then .ok (s, [])
  else do
    let (leftMenu, effects) ← s.leftMenu.viewDidLoad env
    return ({ s with leftMenu := leftMenu }, effects)

/-- `MenuListController.tableView(_:didSelectRowAt:)`, on a row that is there. -/
def didSelectMenuRow (env : Env) (row : ℕ) : Option (After HomeViewController) :=
  (s.leftMenu.menuListItems[row]?).map fun selectedItem =>
    s.didSelectMenuItem env (lowercased selectedItem)

end HomeViewController

end ArtsExplorer
