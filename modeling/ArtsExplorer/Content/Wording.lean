import ArtsExplorer.App.Replies
import ArtsExplorer.Content.Schema
import ArtsExplorer.System.Contract
import ArtsExplorer.System.Start
import Mathlib.Data.List.DropRight

/-!
# Texts and categories

What is checked and trimmed at a press is what the closures write later, and nothing else is
written: the texts of stored posts and comments have no blanks at their ends, a comment says
something, and the picture that a post refers to is its own (`texts_tidy`). The categories of the
posts and those that the side menu asks for are the same four, though the two lists have nothing in
common in the code (`categories_closed`).
-/

namespace ArtsExplorer

open Foundations

/-- A text with no blanks at its ends. -/
def IsTrimmed (text : String) : Prop := trimmed text = text

/-- What is dropped at the end of a list leaves its front. -/
theorem dropWhile_rdropWhile {α : Type} {p : α → Bool} {l : List α} (h : l.dropWhile p = l) :
    (l.rdropWhile p).dropWhile p = l.rdropWhile p := by
  rw [List.dropWhile_eq_self_iff] at h ⊢
  intro hpos
  have hinit := List.rdropWhile_prefix p l
  rw [hinit.getElem hpos]
  exact h (lt_of_lt_of_le hpos hinit.length_le)

theorem isTrimmed_trimmed (text : String) : IsTrimmed (trimmed text) := by
  have hfront : (text.toList.dropWhile isWhitespaceOrNewline).dropWhile isWhitespaceOrNewline =
      text.toList.dropWhile isWhitespaceOrNewline := List.dropWhile_idempotent _ _
  have hlist : (trimmed text).toList =
      (text.toList.dropWhile isWhitespaceOrNewline).rdropWhile isWhitespaceOrNewline := by
    rw [trimmed, String.toList_ofList]
    rfl
  have htwice : trimmed (trimmed text) = String.ofList (((trimmed text).toList.dropWhile
      isWhitespaceOrNewline).rdropWhile isWhitespaceOrNewline) := rfl
  rw [IsTrimmed, htwice, hlist, dropWhile_rdropWhile hfront, List.rdropWhile_idempotent, ← hlist,
    String.ofList_toList]

/-- One of the categories that the upload screen has buttons for. -/
def IsCategory (x : String) : Prop := ∃ b : CategoryButton, lowercased b.title = x

/-- What the draft of post `id` has been checked for. -/
structure TidyDraft (id mediaID titleText descriptionText : String) : Prop where
  title : IsTrimmed titleText
  description : IsTrimmed descriptionText
  media : mediaID = "" ∨ mediaID = id
  filled : titleText ≠ "" ∨ descriptionText ≠ "" ∨ mediaID = id

/-- Categories of the upload screen, each once. -/
def AreCategories (chosen : List String) : Prop := chosen.Nodup ∧ ∀ x ∈ chosen, IsCategory x

def AEPost.Tidy (post : AEPost) : Prop :=
  TidyDraft post.id post.mediaID post.title post.description ∧ AreCategories post.categories

def Comment.Tidy (comment : Comment) : Prop := IsTrimmed comment.message ∧ comment.message ≠ ""

/-- The texts that a closure has captured are tidy. -/
def Callback.Tidy : Callback → Prop
  | .uploadUser id _ mediaID titleText descriptionText =>
    TidyDraft id mediaID titleText descriptionText
  | .commentUser _ _ message => IsTrimmed message ∧ message ≠ ""
  | _ => True

/-- The calls with texts or categories have tidy ones. -/
def Request.Tidy : Request → Prop
  | .getDocument _ _ k => k.Tidy
  | .setData .posts _ fields _ =>
    ∀ post, AEPost.ofDocument (.ofFields fields) = .ok post → post.Tidy
  | .setData .comments _ fields _ =>
    ∀ a comment, Comment.ofDocument a (.ofFields fields) = .ok comment → comment.Tidy
  | .getDocuments .posts q .homePosts =>
    ∀ x, .arrayContains "categories" x ∈ q.filters → IsCategory x
  | _ => True

/-- The rows of the side menu, for moderators and for others. -/
def menuRows : List String := ["Home", "Art", "Drama", "Film", "Music", "Moderation", "Log out"]

/-- A tap on a category button keeps the chosen categories what they are. -/
theorem AreCategories.changeButton {p : CategoryPicker CategoryButton}
    (hp : p.Consistent lowercased CategoryButton.title) (h : AreCategories p.chosenCategories)
    (b : CategoryButton) : AreCategories (p.changeButton lowercased b).chosenCategories := by
  unfold CategoryPicker.changeButton
  simp only [hp.title b]
  split_ifs with hsel
  · refine ⟨?_, fun x hx => h.2 x (CategoryPicker.mem_removeEach.1 hx).1⟩
    rw [CategoryPicker.removeEach, CategoryPicker.removeLoop_eq_filter _ (le_refl _)]
    exact h.1.filter _
  · -- a category that is chosen already has its button selected
    have hnew : lowercased b.title ∉ p.chosenCategories := by
      intro hmem
      obtain ⟨b', hb', htitle⟩ := (hp.mem_iff _).1 hmem
      exact hsel (CategoryButton.eq_of_title htitle ▸ hb')
    refine ⟨h.1.append (List.nodup_singleton _) ?_, fun x hx => ?_⟩
    · simpa using hnew
    · rcases List.mem_append.1 hx with hx | hx
      · exact h.2 x hx
      · exact ⟨b, (List.mem_singleton.1 hx).symm⟩

namespace Screen

/-- The categories that a screen holds are those of the upload screen. -/
def Worded : Screen → Prop
  | .home s => (s.currentCategory = "" ∨ IsCategory s.currentCategory) ∧
    ∀ item ∈ s.leftMenu.menuListItems, item ∈ menuRows
  | .upload s =>
    s.picker.Consistent lowercased CategoryButton.title ∧ AreCategories s.picker.chosenCategories
  | _ => True

variable {env : Env} {scr scr' : Screen} {es : List Effect}

/-- A row of the menu that is none of the other three is a category. -/
theorem isCategory_of_row {item : String} (h : item ∈ menuRows)
    (hmod : lowercased item ≠ "moderation") (hout : lowercased item ≠ "log out")
    (hhome : lowercased item ≠ "home") : IsCategory (lowercased item) := by
  simp only [menuRows, List.mem_cons, List.not_mem_nil, or_false] at h
  rcases h with rfl | rfl | rfl | rfl | rfl | rfl | rfl
  · exact absurd (by decide) hhome
  · exact ⟨.artButton, rfl⟩
  · exact ⟨.dramaButton, rfl⟩
  · exact ⟨.filmButton, rfl⟩
  · exact ⟨.musicButton, rfl⟩
  · exact absurd (by decide) hmod
  · exact absurd (by decide) hout

theorem tidy_loadPosts {r : Request} (h : .request r ∈ HomeViewController.loadPosts) : r.Tidy := by
  cases List.mem_singleton.1 h
  intro x hx
  simp [HomeViewController.approvedPosts] at hx

theorem tidy_loadSpecificPosts {c : String} (hc : IsCategory c) {r : Request}
    (h : .request r ∈ HomeViewController.loadSpecificPosts c) : r.Tidy := by
  cases List.mem_singleton.1 h
  intro x hx
  simp only [HomeViewController.approvedPostsOf, List.mem_cons, reduceCtorEq, List.not_mem_nil,
    or_false, false_or, Filter.arrayContains.injEq, true_and] at hx
  exact hx ▸ hc

theorem uploadPressed_tidy {s s' : UploadViewController} (h : s.uploadPressed env = .ok (s', es))
    {r : Request} (hr : .request r ∈ es) : r.Tidy := by
  unfold UploadViewController.uploadPressed at h
  split at h
  · cases h
    simp at hr
  · next hvalid =>
    simp only [bind_eq_ok, pure_eq_ok, Prod.mk.injEq] at h
    obtain ⟨u, -, -, rfl⟩ := h
    rw [List.mem_append, List.mem_singleton] at hr
    rcases hr with hr | hr
    · split_ifs at hr
      · obtain ⟨image, -, -, he⟩ := UploadViewController.mem_uploadImage hr
        cases he
        trivial
      · cases hr
    · cases hr
      refine ⟨isTrimmed_trimmed _, isTrimmed_trimmed _, ?_, ?_⟩
      · split_ifs
        · exact .inr rfl
        · exact .inl rfl
      · unfold UploadViewController.validateFields at hvalid
        simp only at hvalid
        split_ifs at hvalid with hempty
        by_cases htitle : trimmed s.titleTextField = ""
        · by_cases hdesc : trimmed s.descriptionTextView = ""
          · have hmedia : s.hasMedia = true := by
              simpa [UploadViewController.hasMedia] using
                fun himage => hempty ⟨htitle, hdesc, himage⟩
            exact .inr (.inr (if_pos hmedia))
          · exact .inr (.inl hdesc)
        · exact .inl htitle

theorem sendCommentPressed_tidy {s s' : CommentsViewController}
    (h : s.sendCommentPressed env = .ok (s', es)) {r : Request} (hr : .request r ∈ es) :
    r.Tidy := by
  unfold CommentsViewController.sendCommentPressed at h
  simp only at h
  split_ifs at h with hempty
  · cases h
    simp at hr
  · simp only [bind_eq_ok, pure_eq_ok, Prod.mk.injEq] at h
    obtain ⟨u, -, -, rfl⟩ := h
    cases List.mem_singleton.1 hr
    exact ⟨isTrimmed_trimmed _, hempty⟩

/-- The calls of a table carry neither texts nor categories. -/
theorem tidy_of_emits_listing {l : PostListing} {b : Bool} {r : Request}
    (h : l.Emits env b (.request r)) : r.Tidy := by
  cases h <;> trivial

/-- Nor do those of the other screens. -/
theorem tidy_of_emits {a : Action} {r : Request} (h : Emits env scr a (.request r))
    (hhome : scr.kind ≠ .home) (hupload : scr.kind ≠ .upload) (hcomments : scr.kind ≠ .comments) :
    r.Tidy := by
  cases h with
  | table hl he => exact tidy_of_emits_listing he
  | homePosts => exact absurd rfl hhome
  | uploadUser => exact absurd rfl hupload
  | commentUser => exact absurd rfl hcomments
  | @pending scr a n => cases n <;> trivial
  | _ => trivial

theorem worded_setListing (l : PostListing) (h : scr.Worded) : (scr.setListing l).Worded := by
  cases scr <;> exact h

theorem worded_of_kind (hhome : scr.kind ≠ .home) (hupload : scr.kind ≠ .upload) : scr.Worded := by
  cases scr
  case home => exact absurd rfl hhome
  case upload => exact absurd rfl hupload
  all_goals trivial

theorem refresh_tidy (h : scr.refresh env = some (.ok (scr', es))) (hw : scr.Worded) {r : Request}
    (hr : .request r ∈ es) : r.Tidy := by
  cases scr
  case home s =>
    cases h
    unfold HomeViewController.reloadPosts at hr
    split_ifs at hr with hnone
    · exact tidy_loadPosts hr
    · exact tidy_loadSpecificPosts (hw.1.resolve_left hnone) hr
  case upload | comments => cases h
  all_goals
    exact tidy_of_emits ((refresh_emits h).2.2 _ hr) (by simp [kind]) (by simp [kind])
      (by simp [kind])

/-- A row of the side menu. -/
theorem didSelectMenuItem_worded {s : HomeViewController} {item : String}
    (hw : (Screen.home s).Worded) (hitem : item ∈ s.leftMenu.menuListItems) :
    (Screen.home (s.didSelectMenuItem env (lowercased item)).1).Worded ∧
      ∀ r, .request r ∈ (s.didSelectMenuItem env (lowercased item)).2 → r.Tidy := by
  unfold HomeViewController.didSelectMenuItem
  split_ifs with hmod hout hhome
  · exact ⟨hw, fun r hr => by simp at hr⟩
  · refine ⟨hw, fun r hr => ?_⟩
    dsimp only at hr
    split at hr <;> simp at hr
  · exact ⟨hw, fun r hr => tidy_loadPosts hr⟩
  · have hcategory := isCategory_of_row (hw.2 item hitem) hmod hout hhome
    exact ⟨⟨.inr hcategory, hw.2⟩, fun r hr => tidy_loadSpecificPosts hcategory hr⟩

/-- **An action** writes tidy texts, and keeps the categories. -/
theorem act_worded {a : Action} (h : scr.act env a = some (.ok (scr', es))) (hw : scr.Worded) :
    scr'.Worded ∧ ∀ r, .request r ∈ es → r.Tidy := by
  have hspec := act_spec h
  have hother : scr.kind ≠ .home → scr.kind ≠ .upload → scr.kind ≠ .comments →
      scr'.Worded ∧ ∀ r, .request r ∈ es → r.Tidy := fun hhome hupload hcomments =>
    ⟨worded_of_kind (hspec.1 ▸ hhome) (hspec.1 ▸ hupload), fun r hr =>
      tidy_of_emits (hspec.2.2 _ hr) hhome hupload hcomments⟩
  cases scr
  case home s =>
    cases a
    case table a =>
      simp only [act] at h
      obtain ⟨l, l', hl, hact, rfl⟩ := tableAct_ok h
      exact ⟨worded_setListing l' hw, fun r hr =>
        tidy_of_emits_listing ((PostListing.act_spec hact).2.2 _ hr)⟩
    case didSelectRowAt row =>
      simp only [act] at h
      obtain ⟨l, l', hl, hsel, rfl⟩ := didSelectRowAt_ok h
      exact ⟨worded_setListing l' hw, fun r hr => tidy_of_emits_listing
        ((@PostListing.didSelectRowAt_spec env _ _ _ _ hsel).2.2 _ hr)⟩
    case refresh =>
      simp only [act] at h
      refine ⟨?_, fun r hr => refresh_tidy h hw hr⟩
      rw [(refresh_emits h).1]
      exact hw
    case tappedMenu =>
      simp only [act, HomeViewController.tappedMenu, MenuListController.viewDidLoad,
        Option.some.injEq, lift_eq_ok, Prod.mk.injEq] at h
      obtain ⟨x, hx, rfl, rfl⟩ := h
      split_ifs at hx
      · cases hx
        exact ⟨hw, fun r hr => by cases hr⟩
      · simp only [bind_eq_ok, Env.uid_eq_ok, pure_eq_ok] at hx
        obtain ⟨_, ⟨u, -, rfl⟩, rfl⟩ := hx
        refine ⟨hw, fun r hr => ?_⟩
        cases List.mem_singleton.1 hr
        trivial
    case didSelectMenuRow row =>
      simp only [act, HomeViewController.didSelectMenuRow, Option.map_map, Option.map_eq_some_iff,
        Function.comp_apply, lift_eq_ok, Except.ok.injEq, Prod.mk.injEq] at h
      obtain ⟨item, hitem, x, rfl, rfl, rfl⟩ := h
      exact didSelectMenuItem_worded hw (List.mem_of_getElem? hitem)
    all_goals cases h
  case upload s =>
    cases a
    case type field text =>
      simp only [act, Option.map_eq_some_iff, Except.ok.injEq, Prod.mk.injEq] at h
      obtain ⟨s', hs', rfl, rfl⟩ := h
      refine ⟨?_, fun r hr => by cases hr⟩
      cases field <;> cases hs' <;> exact hw
    case categoryPressed b =>
      cases h
      exact ⟨⟨hw.1.changeButton (fun _ _ => CategoryButton.eq_of_title) b,
        hw.2.changeButton hw.1 b⟩, fun r hr => by cases hr⟩
    case uploadPressed =>
      simp only [act, Option.some.injEq, lift_eq_ok, Prod.mk.injEq] at h
      obtain ⟨x, hx, rfl, rfl⟩ := h
      rw [(@uploadPressed_emits env _ _ _ hx).1]
      exact ⟨hw, fun r hr => uploadPressed_tidy hx hr⟩
    case didFinishPicking | pressedClearMedia =>
      cases h
      exact ⟨hw, fun r hr => by cases hr⟩
    all_goals cases h
  case comments s =>
    refine ⟨worded_of_kind (hspec.1 ▸ by simp [kind]) (hspec.1 ▸ by simp [kind]), fun r hr => ?_⟩
    cases a
    case sendCommentPressed =>
      simp only [act, Option.some.injEq, lift_eq_ok, Prod.mk.injEq] at h
      obtain ⟨x, hx, rfl, rfl⟩ := h
      exact sendCommentPressed_tidy hx hr
    case type field text =>
      simp only [act, Option.map_eq_some_iff, Except.ok.injEq, Prod.mk.injEq] at h
      obtain ⟨s', -, rfl, rfl⟩ := h
      cases hr
    all_goals cases h
  all_goals exact hother (by simp [kind]) (by simp [kind]) (by simp [kind])

/-- What a closure writes carries what it has captured, and the categories of its screen. -/
theorem tidy_of_answers {k : Callback} {r : Reply} {req : Request}
    (h : Answers env scr k r (.request req)) (hw : scr.Worded) (hk : k.Tidy) : req.Tidy := by
  cases h with
  | @uploadSet s d postUUID opID mediaID titleText descriptionText opName =>
    intro post hpost
    have hread : AEPost.ofDocument (.ofFields (postDocument postUUID opID opName
      s.picker.chosenCategories mediaID titleText descriptionText env.date)) =
        .ok ⟨postUUID, opID, opName, true, s.picker.chosenCategories, mediaID, titleText,
          descriptionText, env.date⟩ := rfl
    cases hread.symm.trans hpost
    exact ⟨hk, hw.2⟩
  | @commentSet s d commentID opID message opName =>
    intro a comment hcomment
    have hread : Comment.ofDocument a (.ofFields (commentDocument commentID message opName opID
      s.postID env.date)) = .ok ⟨commentID, message, opName, opID, a, s.postID, env.date⟩ := rfl
    cases hread.symm.trans hcomment
    exact hk
  | _ => trivial

/-- **A closure** keeps the categories of its screen. -/
theorem receive_worded {k : Callback} {r : Reply}
    (h : scr.receive env k r = some (.ok (scr', es))) (hw : scr.Worded) : scr'.Worded := by
  cases receive_learns h with
  | unchanged => exact hw
  | cell => exact worded_setListing _ hw
  | homePosts => exact hw
  | menu hmenu =>
    simp only [MenuListController.viewDidLoadReply, bind_eq_ok, pure_eq_ok, Prod.mk.injEq] at hmenu
    obtain ⟨mod, -, rfl, -⟩ := hmenu
    have hrows : ∀ mod : Bool, ∀ item ∈
        (if mod then ["Home", "Art", "Drama", "Film", "Music", "Moderation", "Log out"]
          else ["Home", "Art", "Drama", "Film", "Music", "Log out"]), item ∈ menuRows := by decide
    exact ⟨hw.1, hrows mod⟩
  | uploadSet => exact ⟨hw.1.clear, List.nodup_nil, fun x hx => by cases hx⟩
  | _ => trivial

/-- A screen is created without categories. -/
theorem worded_of_loaded {d : Destination} {rs : List Request} (h : Loaded env d scr rs) :
    scr.Worded ∧ ∀ r ∈ rs, r.Tidy := by
  cases h
  case upload =>
    refine ⟨⟨⟨fun _ => rfl, fun x => ?_⟩, List.nodup_nil, fun x hx => by cases hx⟩, fun r hr => by
      cases hr⟩
    simp [UploadViewController.viewDidLoad]
  case userProfile | otherProfile =>
    refine ⟨trivial, fun r hr => ?_⟩
    simp only [List.mem_cons, List.not_mem_nil, or_false] at hr
    rcases hr with rfl | rfl <;> trivial
  case saved | comments | moderationPosts | moderationComments =>
    refine ⟨trivial, fun r hr => ?_⟩
    cases List.mem_singleton.1 hr
    trivial
  all_goals exact ⟨trivial, fun r hr => by cases hr⟩

end Screen

namespace System

variable {ι : Type}

/-- The contract of the texts and categories. -/
def worded (ι : Type) : Contract ι where
  screen _ scr := scr.Worded
  call _ _ r := r.Tidy
  answer _ _ _ := True

theorem worded_sound (ι : Type) [DecidableEq ι] : (worded ι).Sound where
  screen _ h := h
  call _ h := h
  answer _ h := h
  initial _ := trivial
  tabBar _ := trivial
  home _ := ⟨⟨.inl rfl, fun _ h => by cases h⟩, fun r hr => Screen.tidy_loadPosts hr⟩
  act {s c k n a env scr' es} _ _ hscr _ hact := by
    obtain ⟨hw, hes⟩ := Screen.act_worded hact hscr
    refine ⟨hw, fun _ _ h => h, fun e he => ?_⟩
    cases e with
    | request r => exact hes r he
    | segue d =>
      intro env' scr'' es' hload
      obtain ⟨rs, hloaded, rfl⟩ := Screen.load_loaded hload
      obtain ⟨hw', hrs⟩ := Screen.worded_of_loaded hloaded
      exact ⟨hw', fun r hr => hrs r (by simpa using hr)⟩
    | _ => trivial
  receive {s f r kb n env scr' es} hreach hkept hf hr hk hn hres := by
    have hinv : s.Inv False := reachable_inv (hreach.mono fun _ _ _ => False.elim)
    have hw := hkept.screens _ _ _ hn
    have htidy : kb.Tidy := by
      have hcall : f.request.Tidy := hkept.call hf hn
      have hcalls := hinv.calls f hf
      generalize f.request = req at hcalls hk hcall
      cases hcalls <;> cases hk <;> first | exact hcall | trivial
    refine ⟨Screen.receive_worded hres hw, fun _ _ h => h, fun e he => ?_⟩
    cases e with
    | request req => exact Screen.tidy_of_answers ((Screen.receive_answers hres).2 _ he) hw htidy
    | segue d => exact absurd he (Screen.segue_notMem_receive hres d)
    | _ => trivial
  serve _ _ _ _ := trivial

/-! ## What is stored and asked for -/

variable [DecidableEq ι] {s : System ι}

/-- A recorded document reads as the fields that it was created with. -/
theorem tidy_of_recorded (h : (machine ι).Reachable s) {n : CollectionName} {id : String}
    {d : Document} (hr : s.Recorded n id d) : ∃ fields k, (Request.setData n id fields k).Tidy ∧
      ∀ key, key ≠ "approved" → d key = Document.ofFields fields key := by
  obtain ⟨fields, ⟨f, hf, k, hreq, -⟩, hfields⟩ := hr.created
  obtain ⟨n', -, hcall⟩ := ((worded_sound ι).kept h).calls f hf
  exact ⟨fields, k, hreq ▸ hcall, hfields⟩

theorem tidy_post (h : (machine ι).Reachable s) {d : Document} (hd : s.Held .posts d)
    {post : AEPost} (hpost : AEPost.ofDocument d = .ok post) : post.Tidy := by
  obtain ⟨id, hr⟩ := recorded_of_held h (by decide) hd
  obtain ⟨fields, k, htidy, hfields⟩ := tidy_of_recorded h hr
  exact htidy post (AEPost.ofDocument_congr hfields ▸ hpost)

theorem tidy_comment (h : (machine ι).Reachable s) {d : Document} (hd : s.Held .comments d)
    {a : Bool} {comment : Comment} (hc : Comment.ofDocument a d = .ok comment) : comment.Tidy := by
  obtain ⟨id, hr⟩ := recorded_of_held h (by decide) hd
  obtain ⟨fields, k, htidy, hfields⟩ := tidy_of_recorded h hr
  exact htidy a comment (Comment.ofDocument_congr hfields ▸ hc)

/-- **The texts of posts and comments are tidy**, of those that are stored and of those that a
screen has been given. -/
theorem texts_tidy (h : (machine ι).Reachable s) :
    (∀ d, s.Held .posts d → ∃ post, AEPost.ofDocument d = .ok post ∧
      TidyDraft post.id post.mediaID post.title post.description) ∧
    ∀ d, s.Held .comments d → ∀ a, ∃ comment, Comment.ofDocument a d = .ok comment ∧
      comment.Tidy := by
  refine ⟨fun d hd => ?_, fun d hd a => ?_⟩
  · obtain ⟨post, hpost⟩ := AEPost.exists_ofDocument ((reachable_typed h).held _ d hd)
    exact ⟨post, hpost, (tidy_post h hd hpost).1⟩
  · obtain ⟨comment, hc⟩ := Comment.exists_ofDocument ((reachable_typed h).held _ d hd) a
    exact ⟨comment, hc, tidy_comment h hd hc⟩

/-- Ann uploads a post whose title she has typed with blanks around it, and chooses the feed of its
category. -/
def artEvents : List (Event Unit) :=
  logInEvents () 0 "ann@cis.edu.hk" "pass" ++ [.act () 2 .uploadTab {}] ++
  uploadEvents () 2 4 "post" " Sketch " 7 ++
  [.act () 3 .tappedMenu {}, .serve 4 .success, .deliver 4 0, .act () 3 (.didSelectMenuRow 1) {}]

/-- The query of that feed. -/
def asksForArt (f : Flight Unit) : Bool :=
  f.request = .getDocuments .posts (HomeViewController.approvedPostsOf "art") .homePosts

theorem exists_art : ∃ (s : System Unit) (d : Document) (f : Flight Unit),
    (machine Unit).Reachable s ∧ (s.store .posts).lookup "post" = some d ∧
      d "title" = some (.string "Sketch") ∧ f ∈ s.net ∧
        f.request = .getDocuments .posts (HomeViewController.approvedPostsOf "art") .homePosts := by
  obtain ⟨s, hs, hp⟩ := (machine Unit).exists_of_run (start annAndBob) artEvents
    (fun s => ((s.store .posts).lookup "post").any (fun d => d "title" = some (.string "Sketch")) &&
      s.net.any asksForArt) (by decide +kernel)
  rw [Bool.and_eq_true] at hp
  obtain ⟨d, hd, htitle⟩ := (Option.any_eq_true _ _).1 hp.1
  obtain ⟨f, hf, hreq⟩ := List.any_eq_true.1 hp.2
  exact ⟨s, d, f, hs.reachable (reachable_start _), hd, of_decide_eq_true htitle, hf,
    of_decide_eq_true hreq⟩

theorem texts_tidy_sketch : ∃ (d : Document) (post : AEPost), AEPost.ofDocument d = .ok post ∧
    post.title = "Sketch" ∧ TidyDraft post.id post.mediaID post.title post.description := by
  obtain ⟨s, d, f, hs, hd, htitle, -⟩ := exists_art
  obtain ⟨post, hpost, htidy⟩ := (texts_tidy hs).1 d (.inl ⟨"post", hd⟩)
  have hread := (AEPost.ofDocument_eq_ok.1 hpost).2.2.2.2.2.1
  rw [htitle, Option.some.injEq, Value.string.injEq] at hread
  exact ⟨d, post, hpost, hread.symm, htidy⟩

/-- **The categories are the same everywhere**: those of a post are categories of the upload screen,
each once, and so is the one that a home screen is on, and the one that a query of it asks for. -/
theorem categories_closed (h : (machine ι).Reachable s) :
    (∀ d, s.Held .posts d → ∃ post, AEPost.ofDocument d = .ok post ∧
      AreCategories post.categories) ∧
    (∀ c k n v, s.At c k n → n.screen = .home v →
      v.currentCategory = "" ∨ IsCategory v.currentCategory) ∧
    ∀ f ∈ s.net, ∀ q, f.request = .getDocuments .posts q .homePosts →
      ∀ x, .arrayContains "categories" x ∈ q.filters → IsCategory x := by
  refine ⟨fun d hd => ?_, fun c k n v hn hscr => ?_, fun f hf q hreq => ?_⟩
  · obtain ⟨post, hpost⟩ := AEPost.exists_ofDocument ((reachable_typed h).held _ d hd)
    exact ⟨post, hpost, (tidy_post h hd hpost).2⟩
  · have hw : n.screen.Worded := ((worded_sound ι).kept h).screens c k n hn
    rw [hscr] at hw
    exact hw.1
  · obtain ⟨n, -, hcall⟩ := ((worded_sound ι).kept h).calls f hf
    have htidy : f.request.Tidy := hcall
    rw [hreq] at htidy
    exact htidy

theorem categories_closed_art : ∃ (s : System Unit) (d : Document) (post : AEPost),
    (s.store .posts).lookup "post" = some d ∧ AEPost.ofDocument d = .ok post ∧
      AreCategories post.categories ∧ IsCategory "art" := by
  obtain ⟨s, d, f, hs, hd, -, hf, hreq⟩ := exists_art
  obtain ⟨hposts, -, hqueries⟩ := categories_closed hs
  obtain ⟨post, hpost, hcategories⟩ := hposts d (.inl ⟨"post", hd⟩)
  exact ⟨s, d, post, hd, hpost, hcategories, hqueries f hf _ hreq "art" (by decide)⟩

end System

end ArtsExplorer
