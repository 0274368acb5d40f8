import ArtsExplorer.App.PostTableViewCell
import ArtsExplorer.App.ModerationPostTableViewCell
import ArtsExplorer.Foundations.Machine

/-!
# A cell that is configured again and again

`cellRun` is one cell of a table that is configured with one post after the other. Every
`configure` reads the author's document and may load the picture of the post, the answer to the read
may load the avatar, and all of these end in any order. The closures have captured the cell, not the
post.

With each of the two image views goes the post that it was assigned for last and the one whose
download was awaited then (`Source`); only an assignment that starts a download of its own cancels
that. When nothing is outstanding, the cell shows the post that was configured last if and only if
it had no download and no failing read of an earlier post ahead of it, and the avatar that was
assigned last is its own (`cells_show_current`, `cells_show_earlier`).

What holds of both kinds of cells follows from the little that `ImageCell` says of them.
-/

namespace ArtsExplorer

open Foundations

/-! ## Image views -/

/-- The pictures an image view is to show for posts: the path of the object, if there is one to
load, and what is shown without it. -/
structure Pictures where
  path : AEPost → Option String
  placeholder : Option UIImage
  /-- Whether the object at a path can be downloaded. -/
  found : String → Bool

/-- The posts behind an image view. -/
structure Source where
  /-- The post whose picture is awaited. -/
  load : Option AEPost := none
  /-- The post that the view was assigned for last. -/
  assigned : Option AEPost := none
  /-- The post whose picture was awaited then. -/
  before : Option AEPost := none

namespace Pictures

variable (m : Pictures)

/-- There is an object to load for the post, and it can be downloaded. -/
def available (post : AEPost) : Bool := (m.path post).any m.found

/-- The picture of a post. -/
def picture (post : AEPost) : Option UIImage :=
  match m.path post with
  | some path => if m.found path then some (.stored path) else m.placeholder
  | none => m.placeholder

/-- The view is assigned for a post: the object is loaded, or there is none. -/
def assign (v : UIImageView) (post : AEPost) : UIImageView :=
  match m.path post with
  | some path => v.sd_setImage path m.placeholder
  | none => v.setImage m.placeholder

/-- The posts behind the view after that. -/
def assignSource (x : Source) (post : AEPost) : Source where
  load := if m.path post = none then x.load else some post
  assigned := some post
  before := x.load

/-- The posts behind the view after the end of a download. -/
def finishSource (x : Source) : Source := { x with load := none }

/-- The post whose picture stays: the one assigned last, unless nothing was loaded for it and the
download that was awaited then succeeds. -/
def lasting (x : Source) : Option AEPost :=
  x.assigned.map fun post =>
    match m.path post, x.before with
    | none, some earlier => if m.available earlier then earlier else post
    | _, _ => post

/-- The awaited download was started by the last assignment, or before it and not cancelled. -/
def Awaits (x : Source) (post : AEPost) : Prop :=
  m.path post ≠ none ∧ ∃ last, x.assigned = some last ∧
    (last = post ∨ m.path last = none ∧ x.before = some post)

/-- The view shows the placeholder while a download is awaited, and then the picture that stays. -/
structure Tracks (v : UIImageView) (x : Source) : Prop where
  loading : v.loading = x.load.bind m.path
  awaits : ∀ post, x.load = some post → m.Awaits x post
  image : v.image = if x.load = none then (m.lasting x).bind m.picture else m.placeholder

variable {m} {v : UIImageView} {x : Source} {post : AEPost}

theorem picture_of_available (h : m.available post = true) :
    ∃ path, m.picture post = some (.stored path) := by
  obtain ⟨path, hpath, hfound⟩ := (Option.any_eq_true _ _).1 h
  exact ⟨path, by simp only [picture, hpath, hfound, if_true]⟩

theorem picture_of_not_available (h : m.available post = false) :
    m.picture post = m.placeholder := by
  unfold picture
  unfold available at h
  cases hp : m.path post with
  | none => rfl
  | some path =>
    rw [hp, Option.any_some] at h
    simp only [h, Bool.false_eq_true, if_false]

theorem lasting_of_before_eq_none (hassigned : x.assigned = some post) (hb : x.before = none) :
    m.lasting x = some post := by
  unfold lasting
  rw [hassigned, hb, Option.map_some]
  cases m.path post <;> rfl

/-- What a view awaits is what it will show. -/
theorem Awaits.picture_eq (h : m.Awaits x post) :
    (m.lasting x).bind m.picture = m.picture post := by
  obtain ⟨hpath, last, hlast, rfl | ⟨hnone, hbefore⟩⟩ := h
  · obtain ⟨path, hpath⟩ := Option.ne_none_iff_exists'.1 hpath
    simp only [lasting, hlast, Option.map_some, hpath, Option.bind_some]
  · simp only [lasting, hlast, Option.map_some, hnone, hbefore, Option.bind_some]
    cases ha : m.available post with
    | true => rfl
    | false =>
      rw [picture_of_not_available ha]
      simp only [Bool.false_eq_true, if_false, picture, hnone]

theorem tracks_new : m.Tracks {} {} := ⟨rfl, fun _ h => (by cases h), rfl⟩

/-- **An assignment** cancels the awaited download only if it starts another. -/
theorem Tracks.assign (h : m.Tracks v x) (post : AEPost) :
    m.Tracks (m.assign v post) (m.assignSource x post) := by
  unfold Pictures.assign assignSource
  cases hp : m.path post with
  | none =>
    refine ⟨h.loading, fun earlier he => ?_, ?_⟩
    · exact ⟨(h.awaits earlier he).1, post, rfl, .inr ⟨hp, he⟩⟩
    · -- with nothing awaited the placeholder stays
      cases hl : x.load with
      | none => simp [lasting, hp, picture, UIImageView.setImage]
      | some earlier => rfl
  | some path =>
    refine ⟨?_, fun last hlast => ?_, rfl⟩
    · simp only [reduceCtorEq, if_false, Option.bind_some, hp]
      rfl
    · cases hlast
      exact ⟨hp ▸ Option.some_ne_none _, post, rfl, .inl rfl⟩

/-- **The end of a download** shows the picture of the post it was started for. -/
theorem Tracks.finish (h : m.Tracks v x) {path : String} (hv : v.loading = some path) :
    m.Tracks (v.finishLoad (m.found path)) (finishSource x) := by
  obtain ⟨post, hpost, hpath⟩ := Option.bind_eq_some_iff.1 (h.loading.symm.trans hv)
  have himage : v.image = m.placeholder := by rw [h.image, hpost]; rfl
  have hpicture : (m.lasting (finishSource x)).bind m.picture =
      if m.found path then some (.stored path) else m.placeholder := by
    refine (h.awaits post hpost).picture_eq.trans ?_
    simp only [picture, hpath]
  unfold UIImageView.finishLoad
  rw [hv]
  refine ⟨rfl, fun _ hx => (by cases hx), ?_⟩
  simp only [finishSource, if_true] at hpicture ⊢
  rw [hpicture, himage]

/-- Without a download in flight the view shows the picture that stays. -/
theorem Tracks.settled (h : m.Tracks v x) (hv : v.loading = none) :
    v.image = (m.lasting x).bind m.picture := by
  cases hl : x.load with
  | none =>
    rw [h.image, hl]
    rfl
  | some post =>
    have hpath := h.loading.symm.trans hv
    rw [hl, Option.bind_some] at hpath
    exact absurd hpath (h.awaits post hl).1

/-- The picture of a post stays, unless there is none and an earlier one was on its way. -/
theorem picture_lasting_iff (hplaceholder : m.placeholder = none)
    (hassigned : x.assigned = some post) :
    (m.lasting x).bind m.picture = m.picture post ↔
      (m.path post = none → ∀ earlier, x.before = some earlier → m.available earlier = false) := by
  cases hp : m.path post with
  | some path => simp [lasting, hassigned, hp]
  | none =>
    cases hb : x.before with
    | none => simp [lasting_of_before_eq_none hassigned hb]
    | some earlier =>
      cases ha : m.available earlier with
      | false => simp [lasting, hassigned, hp, hb, ha]
      | true =>
        obtain ⟨path, hpath⟩ := picture_of_available ha
        have hnone : m.picture post = none := by simp only [picture, hp, hplaceholder]
        simp [lasting, hassigned, hp, hb, ha, hpath, hnone]

end Pictures

/-! ## Documents and objects -/

/-- What the reads of user documents and the downloads find. -/
structure CellStore where
  users : String → Option Document
  found : String → Bool

namespace CellStore

variable (st : CellStore)

/-- The pictures of the posts themselves. -/
def images : Pictures where
  path post := if post.mediaID ≠ "" then some ("posts/" ++ post.id) else none
  placeholder := none
  found := st.found

/-- The avatars of their authors. -/
def avatars : Pictures where
  path post :=
    match (st.users post.opID).bind (· "avatarID") with
    | some (.string avatarID) => if avatarID ≠ "" then some ("avatars/" ++ avatarID) else none
    | _ => none
  placeholder := some placeholderProfile
  found := st.found

/-- The avatar that a cell shows for a post: none for an author without a document. -/
def avatarOf (post : AEPost) : Option UIImage :=
  (st.users post.opID).bind fun _ => st.avatars.picture post

/-- The title that a cell shows for a post. -/
def titleOf (post : AEPost) : String :=
  match st.users post.opID with
  | some _ => post.title
  | none => Constants.postNotFoundError

end CellStore

/-! ## Cells -/

/-- A cell with an avatar, a picture and a title, and what its handlers do to them. -/
structure ImageCell (σ : Type) where
  new : σ
  configure : σ → AEPost → σ
  configureReply : Env → σ → Option Document → Except Fault σ
  userImageView : σ → UIImageView
  postImageView : σ → UIImageView
  titleText : σ → String
  /-- The end of the download of the avatar, and of the picture. -/
  finishAvatar : σ → Bool → σ
  finishImage : σ → Bool → σ
  new_views : userImageView new = {} ∧ postImageView new = {}
  configure_views : ∀ (st : CellStore) c post,
    userImageView (configure c post) = userImageView c ∧
      postImageView (configure c post) = st.images.assign (postImageView c) post ∧
      titleText (configure c post) = post.title
  reply_found : ∀ (st : CellStore) env c c' post document, st.users post.opID = some document →
    configureReply env c (some document) = .ok c' →
    userImageView c' = st.avatars.assign (userImageView c) post ∧
      postImageView c' = postImageView c ∧ titleText c' = titleText c
  reply_missing : ∀ env c c', configureReply env c none = .ok c' →
    userImageView c' = userImageView c ∧ postImageView c' = postImageView c ∧
      titleText c' = Constants.postNotFoundError
  finishAvatar_views : ∀ c found,
    userImageView (finishAvatar c found) = (userImageView c).finishLoad found ∧
      postImageView (finishAvatar c found) = postImageView c ∧
      titleText (finishAvatar c found) = titleText c
  finishImage_views : ∀ c found,
    userImageView (finishImage c found) = userImageView c ∧
      postImageView (finishImage c found) = (postImageView c).finishLoad found ∧
      titleText (finishImage c found) = titleText c

/-- The pictures of a post as both `configure(with:)` assign them. -/
theorem images_assign (st : CellStore) (v : UIImageView) (post : AEPost) :
    st.images.assign v post =
      if post.mediaID ≠ "" then v.sd_setImage ("posts/" ++ post.id) none else v.setImage none := by
  simp only [Pictures.assign, CellStore.images]
  split_ifs <;> rfl

/-- The avatars as both closures assign them. -/
theorem avatars_assign (st : CellStore) (v : UIImageView) {post : AEPost} {document : Document}
    {avatarID : String} (hd : st.users post.opID = some document)
    (ha : document "avatarID" = some (.string avatarID)) :
    st.avatars.assign v post =
      if avatarID ≠ "" then v.sd_setImage ("avatars/" ++ avatarID) (some placeholderProfile)
      else v.setImage (some placeholderProfile) := by
  simp only [Pictures.assign, CellStore.avatars, hd, Option.bind_some, ha]
  split_ifs <;> rfl

def postCell : ImageCell PostTableViewCell where
  new := {}
  configure c post := (c.configure 0 post).1
  configureReply env c document := (c.configureReply env 0 document).map Prod.fst
  userImageView := PostTableViewCell.userImageView
  postImageView := PostTableViewCell.postImageView
  titleText := PostTableViewCell.titleText
  finishAvatar c found := PostListing.finishLoad c false found
  finishImage c found := PostListing.finishLoad c true found
  new_views := ⟨rfl, rfl⟩
  configure_views st c post := ⟨rfl, (images_assign st _ post).symm, rfl⟩
  reply_found st env c c' post document hd h := by
    cases hr : c.configureReply env 0 (some document) with
    | error f =>
      rw [hr] at h
      cases h
    | ok a =>
      rw [hr] at h
      cases h
      simp only [PostTableViewCell.configureReply, bind_eq_ok, getString_eq_ok, pure_eq_ok] at hr
      obtain ⟨avatarID, ha, _, -, rfl⟩ := hr
      exact ⟨(avatars_assign st _ hd ha).symm, rfl, rfl⟩
  reply_missing env c c' h := by
    cases h
    exact ⟨rfl, rfl, rfl⟩
  finishAvatar_views c found := ⟨rfl, rfl, rfl⟩
  finishImage_views c found := ⟨rfl, rfl, rfl⟩

def moderationPostCell : ImageCell ModerationPostTableViewCell where
  new := {}
  configure c post := (c.configure post).1
  configureReply _ c document := c.configureReply document
  userImageView := ModerationPostTableViewCell.userImageView
  postImageView := ModerationPostTableViewCell.postImageView
  titleText := ModerationPostTableViewCell.postTitleText
  finishAvatar c found := { c with userImageView := c.userImageView.finishLoad found }
  finishImage c found := { c with postImageView := c.postImageView.finishLoad found }
  new_views := ⟨rfl, rfl⟩
  configure_views st c post := ⟨rfl, (images_assign st _ post).symm, rfl⟩
  reply_found st env c c' post document hd h := by
    simp only [ModerationPostTableViewCell.configureReply, bind_eq_ok, getString_eq_ok,
      pure_eq_ok] at h
    obtain ⟨avatarID, ha, rfl⟩ := h
    exact ⟨(avatars_assign st _ hd ha).symm, rfl, rfl⟩
  reply_missing env c c' h := by
    cases h
    exact ⟨rfl, rfl, rfl⟩
  finishAvatar_views c found := ⟨rfl, rfl, rfl⟩
  finishImage_views c found := ⟨rfl, rfl, rfl⟩

/-! ## Runs -/

/-- A cell with what is outstanding for it and where its contents come from. -/
structure CellRun (σ : Type) where
  cell : σ
  /-- The post that was configured last. -/
  post : Option AEPost := none
  /-- The posts whose authors' documents are being read. -/
  reads : List AEPost := []
  /-- Those whose authors' documents were being read when `post` was configured. -/
  earlier : List AEPost := []
  avatar : Source := {}
  image : Source := {}
  fault : Option Fault := none

namespace CellRun

inductive Event
  | configure (post : AEPost)
  /-- The `i`-th of the reads is answered. -/
  | replied (i : ℕ) (env : Env)
  /-- The download of the avatar ends. -/
  | avatarLoaded
  /-- The download of the picture ends. -/
  | imageLoaded

variable {σ : Type} (C : ImageCell σ) (st : CellStore)

/-- What an event does while the process runs. -/
def react (s : CellRun σ) : Event → Option (CellRun σ)
  | .configure post =>
    some { s with
      cell := C.configure s.cell post
      post := some post
      reads := s.reads ++ [post]
      earlier := s.reads
      image := st.images.assignSource s.image post }
  | .replied i env =>
    match s.reads[i]? with
    | some post =>
      match C.configureReply env s.cell (st.users post.opID) with
      | .error f => some { s with fault := some f }
      | .ok cell =>
        match st.users post.opID with
        | some _ =>
          some { s with
            cell := cell
            reads := s.reads.eraseIdx i
            avatar := st.avatars.assignSource s.avatar post }
        | none => some { s with cell := cell, reads := s.reads.eraseIdx i }
    | none => none
  | .avatarLoaded =>
    (C.userImageView s.cell).loading.map fun path =>
      { s with
        cell := C.finishAvatar s.cell (st.found path)
        avatar := Pictures.finishSource s.avatar }
  | .imageLoaded =>
    (C.postImageView s.cell).loading.map fun path =>
      { s with
        cell := C.finishImage s.cell (st.found path)
        image := Pictures.finishSource s.image }

def step (s : CellRun σ) (e : Event) : Option (CellRun σ) :=
  if s.fault = none then s.react C st e else none

end CellRun

/-- A cell as a machine. -/
def cellRun {σ : Type} (C : ImageCell σ) (st : CellStore) : Machine (CellRun σ) CellRun.Event where
  Initial s := s = { cell := C.new }
  step := CellRun.step C st

namespace CellRun

variable {σ : Type} {C : ImageCell σ} {st : CellStore} {s t : CellRun σ} {e : Event}

/-- No read and no download is outstanding. -/
structure Settled (C : ImageCell σ) (s : CellRun σ) : Prop where
  reads : s.reads = []
  avatar : (C.userImageView s.cell).loading = none
  image : (C.postImageView s.cell).loading = none

instance (C : ImageCell σ) (s : CellRun σ) : Decidable (s.Settled C) :=
  decidable_of_iff (s.reads = [] ∧ (C.userImageView s.cell).loading = none ∧
    (C.postImageView s.cell).loading = none)
    ⟨fun ⟨hr, ha, hi⟩ => ⟨hr, ha, hi⟩, fun ⟨hr, ha, hi⟩ => ⟨hr, ha, hi⟩⟩

/-- The cell shows the avatar, the picture and the title of a post. -/
structure Shows (C : ImageCell σ) (st : CellStore) (s : CellRun σ) (post : AEPost) : Prop where
  avatar : (C.userImageView s.cell).image = st.avatarOf post
  image : (C.postImageView s.cell).image = st.images.picture post
  title : C.titleText s.cell = st.titleOf post

/-- What was outstanding at the last assignments leaves the post alone. -/
structure Undisturbed (st : CellStore) (s : CellRun σ) (post : AEPost) : Prop where
  /-- The avatar that stays is that of the author. -/
  avatar : st.users post.opID ≠ none → ∃ last, st.avatars.lasting s.avatar = some last ∧
    st.avatars.picture last = st.avatars.picture post
  /-- For an author without a document there has been no answer with one. -/
  noAvatar : st.users post.opID = none → s.avatar.assigned = none
  /-- A post without picture does not find the picture of an earlier post on its way. -/
  image : post.mediaID = "" → ∀ earlier, s.image.before = some earlier →
    st.images.available earlier = false
  /-- A post of an author with a document does not find a failing read of an earlier post. -/
  title : st.users post.opID ≠ none → post.title ≠ Constants.postNotFoundError →
    ∀ earlier ∈ s.earlier, st.users earlier.opID ≠ none

/-! ### The invariant -/

/-- The title is that of the post, and every read that will fail is still to be answered, or the
answer to one has come. -/
def TitleOK (C : ImageCell σ) (st : CellStore) (s : CellRun σ) : Prop :=
  ∀ post, s.post = some post →
    (C.titleText s.cell = post.title ∧
      ∀ x ∈ s.earlier ++ [post], st.users x.opID = none → x ∈ s.reads) ∨
    (C.titleText s.cell = Constants.postNotFoundError ∧
      ∃ x ∈ s.earlier ++ [post], st.users x.opID = none)

structure Inv (C : ImageCell σ) (st : CellStore) (s : CellRun σ) : Prop where
  avatar : st.avatars.Tracks (C.userImageView s.cell) s.avatar
  image : st.images.Tracks (C.postImageView s.cell) s.image
  assigned : s.image.assigned = s.post
  reads : ∀ post, s.post = some post → ∀ x ∈ s.reads, x ∈ s.earlier ++ [post]
  title : TitleOK C st s

theorem inv_new : Inv C st { cell := C.new } := by
  refine ⟨?_, ?_, rfl, fun _ h => (by cases h), fun _ h => (by cases h)⟩
  · rw [C.new_views.1]
    exact Pictures.tracks_new
  · rw [C.new_views.2]
    exact Pictures.tracks_new

theorem Inv.configure (h : Inv C st s) (post : AEPost) :
    Inv C st { s with
      cell := C.configure s.cell post
      post := some post
      reads := s.reads ++ [post]
      earlier := s.reads
      image := st.images.assignSource s.image post } := by
  obtain ⟨havatar, himage, htitle⟩ := C.configure_views st s.cell post
  refine ⟨havatar ▸ h.avatar, himage ▸ h.image.assign post, rfl, ?_, ?_⟩
  · intro post' hpost' x hx
    cases hpost'
    exact hx
  · intro post' hpost'
    cases hpost'
    exact .inl ⟨htitle, fun x hx _ => hx⟩

/-- The answer with a document: the avatar is assigned. -/
theorem Inv.found (h : Inv C st s) {i : ℕ} {post : AEPost} {env : Env} {cell : σ}
    {document : Document} (hi : s.reads[i]? = some post) (hd : st.users post.opID = some document)
    (hr : C.configureReply env s.cell (some document) = .ok cell) :
    Inv C st { s with
      cell := cell
      reads := s.reads.eraseIdx i
      avatar := st.avatars.assignSource s.avatar post } := by
  obtain ⟨havatar, himage, htitle⟩ := C.reply_found st env _ _ _ _ hd hr
  refine ⟨havatar ▸ h.avatar.assign post, himage ▸ h.image, h.assigned,
    fun post' hpost' x hx => h.reads post' hpost' x (List.mem_of_mem_eraseIdx hx), ?_⟩
  intro post' hpost'
  refine (h.title post' hpost').imp (fun ⟨htext, hreads⟩ => ⟨htitle.trans htext, ?_⟩)
    fun ⟨htext, hx⟩ => ⟨htitle.trans htext, hx⟩
  -- the read that is answered is not one of those that fail
  intro x hx hnone
  obtain ⟨j, hj⟩ := List.mem_iff_getElem?.1 (hreads x hx hnone)
  refine List.mem_eraseIdx_iff_getElem?.2 ⟨j, ?_, hj⟩
  rintro rfl
  cases hi.symm.trans hj
  rw [hd] at hnone
  cases hnone

/-- The answer without a document: the title is assigned. -/
theorem Inv.missing (h : Inv C st s) {i : ℕ} {post : AEPost} {env : Env} {cell : σ}
    (hi : s.reads[i]? = some post) (hd : st.users post.opID = none)
    (hr : C.configureReply env s.cell none = .ok cell) :
    Inv C st { s with cell := cell, reads := s.reads.eraseIdx i } := by
  obtain ⟨havatar, himage, htitle⟩ := C.reply_missing _ _ _ hr
  refine ⟨havatar ▸ h.avatar, himage ▸ h.image, h.assigned,
    fun post' hpost' x hx => h.reads post' hpost' x (List.mem_of_mem_eraseIdx hx), ?_⟩
  intro post' hpost'
  exact .inr ⟨htitle, post, h.reads post' hpost' post (List.mem_of_getElem? hi), hd⟩

theorem Inv.avatarLoaded (h : Inv C st s) {path : String}
    (hp : (C.userImageView s.cell).loading = some path) :
    Inv C st { s with
      cell := C.finishAvatar s.cell (st.found path)
      avatar := Pictures.finishSource s.avatar } := by
  obtain ⟨havatar, himage, htitle⟩ := C.finishAvatar_views s.cell (st.found path)
  refine ⟨havatar ▸ h.avatar.finish hp, himage ▸ h.image, h.assigned, h.reads, ?_⟩
  intro post hpost
  simpa only [htitle] using h.title post hpost

theorem Inv.imageLoaded (h : Inv C st s) {path : String}
    (hp : (C.postImageView s.cell).loading = some path) :
    Inv C st { s with
      cell := C.finishImage s.cell (st.found path)
      image := Pictures.finishSource s.image } := by
  obtain ⟨havatar, himage, htitle⟩ := C.finishImage_views s.cell (st.found path)
  refine ⟨havatar ▸ h.avatar, himage ▸ h.image.finish hp, h.assigned, h.reads, ?_⟩
  intro post hpost
  simpa only [htitle] using h.title post hpost

theorem inv_step (h : Inv C st s) (hs : s.step C st e = some t) : Inv C st t := by
  simp only [step, Option.ite_none_right_eq_some] at hs
  replace hs := hs.2
  cases e with
  | configure post =>
    cases hs
    exact h.configure post
  | replied i env =>
    simp only [react] at hs
    split at hs
    swap
    · cases hs
    next post hi =>
    split at hs
    · cases hs
      exact ⟨h.avatar, h.image, h.assigned, h.reads, h.title⟩
    · next cell hr =>
      split at hs
      · next document hd =>
        cases hs
        exact h.found hi hd (hd ▸ hr)
      · next hd =>
        cases hs
        exact h.missing hi hd (hd ▸ hr)
  | avatarLoaded =>
    obtain ⟨path, hp, rfl⟩ := Option.map_eq_some_iff.1 hs
    exact h.avatarLoaded hp
  | imageLoaded =>
    obtain ⟨path, hp, rfl⟩ := Option.map_eq_some_iff.1 hs
    exact h.imageLoaded hp

theorem inv_reachable (h : (cellRun C st).Reachable s) : Inv C st s :=
  h.induct (fun _ h => h ▸ inv_new) fun _ _ _ _ hi _ hs => inv_step hi hs

/-! ### When nothing is outstanding -/

theorem avatars_picture_ne_none (st : CellStore) (post : AEPost) :
    st.avatars.picture post ≠ none := by
  unfold Pictures.picture
  split
  · split_ifs
    · exact Option.some_ne_none _
    · exact Option.some_ne_none _
  · exact Option.some_ne_none _

/-- The avatar of a settled cell. -/
theorem Inv.avatar_iff (h : Inv C st s) (hs : s.Settled C) (post : AEPost) :
    (C.userImageView s.cell).image = st.avatarOf post ↔
      (st.users post.opID ≠ none → ∃ last, st.avatars.lasting s.avatar = some last ∧
        st.avatars.picture last = st.avatars.picture post) ∧
      (st.users post.opID = none → s.avatar.assigned = none) := by
  rw [h.avatar.settled hs.avatar]
  unfold CellStore.avatarOf
  cases hu : st.users post.opID with
  | none =>
    simp only [Option.bind_none, ne_eq, not_true_eq_false, false_imp_iff, true_and, forall_const]
    cases ha : s.avatar.assigned with
    | none => simp [Pictures.lasting, ha]
    | some last =>
      simp only [Pictures.lasting, ha, Option.map_some, Option.bind_some, reduceCtorEq, iff_false]
      exact avatars_picture_ne_none _ _
  | some document =>
    obtain ⟨image, himage⟩ := Option.ne_none_iff_exists'.1 (avatars_picture_ne_none st post)
    simp [himage, Option.bind_eq_some_iff]

/-- The title of a settled cell. -/
theorem Inv.title_iff (h : Inv C st s) (hs : s.Settled C) {post : AEPost}
    (hpost : s.post = some post) :
    C.titleText s.cell = st.titleOf post ↔
      (st.users post.opID ≠ none → post.title ≠ Constants.postNotFoundError →
        ∀ earlier ∈ s.earlier, st.users earlier.opID ≠ none) := by
  unfold CellStore.titleOf
  rcases h.title post hpost with ⟨htext, hreads⟩ | ⟨htext, x, hx, hnone⟩
  · -- no read has failed
    have hfound : ∀ x ∈ s.earlier ++ [post], st.users x.opID ≠ none := by
      intro x hx hnone
      have hmem := hreads x hx hnone
      rw [hs.reads] at hmem
      cases hmem
    refine iff_of_true ?_ fun _ _ x hx => hfound x (List.mem_append_left _ hx)
    obtain ⟨document, hd⟩ := Option.ne_none_iff_exists'.1
      (hfound post (List.mem_append_right _ (List.mem_singleton_self _)))
    rw [htext, hd]
  · rw [htext]
    cases hu : st.users post.opID with
    | none => simp
    | some document =>
      -- the read that has failed is that of an earlier post
      have hearlier : x ∈ s.earlier := by
        refine (List.mem_append.1 hx).resolve_right fun hmem => ?_
        rw [List.mem_singleton.1 hmem, hu] at hnone
        cases hnone
      constructor
      · intro htitle _ hne
        exact absurd htitle.symm hne
      · intro hcond
        by_contra hne
        exact hcond (Option.some_ne_none _) (Ne.symm hne) x hearlier hnone

/-- **A settled cell** shows its post if and only if nothing has disturbed it. -/
theorem Inv.shows_iff (h : Inv C st s) (hs : s.Settled C) {post : AEPost}
    (hpost : s.post = some post) : s.Shows C st post ↔ s.Undisturbed st post := by
  have hpath : st.images.path post = none ↔ post.mediaID = "" := by
    simp only [CellStore.images, ite_eq_right_iff, reduceCtorEq, imp_false, not_not]
  have himage := Pictures.picture_lasting_iff (m := st.images) rfl (h.assigned.trans hpost)
  rw [← h.image.settled hs.image, hpath] at himage
  constructor
  · rintro ⟨havatar, hshown, htitle⟩
    obtain ⟨hfound, hmissing⟩ := (h.avatar_iff hs post).1 havatar
    exact ⟨hfound, hmissing, himage.1 hshown, (h.title_iff hs hpost).1 htitle⟩
  · rintro ⟨hfound, hmissing, hquiet, hreads⟩
    exact ⟨(h.avatar_iff hs post).2 ⟨hfound, hmissing⟩, himage.2 hquiet,
      (h.title_iff hs hpost).2 hreads⟩

/-- **A cell shows the post that was configured last**, once nothing is outstanding, if and only if
no download and no failing read of an earlier post was ahead of it and the avatar that stays is its
own. -/
theorem cells_show_current (st : CellStore) (es : List Event) (s : CellRun PostTableViewCell)
    (t : CellRun ModerationPostTableViewCell) (post : AEPost) :
    ((cellRun postCell st).Steps (fun _ _ => True) { cell := postCell.new } es s →
      s.Settled postCell → s.post = some post →
        (s.Shows postCell st post ↔ s.Undisturbed st post)) ∧
    ((cellRun moderationPostCell st).Steps (fun _ _ => True) { cell := moderationPostCell.new } es
        t → t.Settled moderationPostCell → t.post = some post →
        (t.Shows moderationPostCell st post ↔ t.Undisturbed st post)) :=
  ⟨fun h hs hpost => (inv_reachable (h.reachable (.init rfl))).shows_iff hs hpost,
    fun h hs hpost => (inv_reachable (h.reachable (.init rfl))).shows_iff hs hpost⟩

/-- Nothing was outstanding at the last assignments, and the authors of the earlier posts have
documents. -/
structure Quiet (st : CellStore) (s : CellRun σ) (post : AEPost) : Prop where
  avatar : s.avatar.assigned = some post ∧ s.avatar.before = none
  image : s.image.before = none
  earlier : ∀ x ∈ s.earlier, (st.users x.opID).isSome = true

instance (st : CellStore) (s : CellRun σ) (post : AEPost) : Decidable (s.Quiet st post) :=
  decidable_of_iff ((s.avatar.assigned = some post ∧ s.avatar.before = none) ∧
    s.image.before = none ∧ ∀ x ∈ s.earlier, (st.users x.opID).isSome = true)
    ⟨fun ⟨ha, hi, he⟩ => ⟨ha, hi, he⟩, fun ⟨ha, hi, he⟩ => ⟨ha, hi, he⟩⟩

theorem Quiet.undisturbed {post : AEPost} (h : s.Quiet st post) (hd : st.users post.opID ≠ none) :
    s.Undisturbed st post := by
  refine ⟨fun _ => ⟨post, ?_, rfl⟩, fun hnone => absurd hnone hd, ?_, ?_⟩
  · exact Pictures.lasting_of_before_eq_none h.avatar.1 h.avatar.2
  · rw [h.image]
    exact fun _ _ hx => (by cases hx)
  · exact fun _ _ x hx => Option.isSome_iff_ne_none.1 (h.earlier x hx)

/-- Ann and Cy have avatars, there is no document for Bob, and every object is stored. -/
def annAndCy : CellStore where
  users u :=
    if u = "ann" then some (.ofFields [("avatarID", .string "7")])
    else if u = "cy" then some (.ofFields [("avatarID", .string "8")])
    else none
  found _ := true

/-- A post with or without a picture. -/
def postBy (opID id mediaID : String) : AEPost :=
  { id := id, opID := opID, opName := opID, approved := true, categories := ["art"],
    mediaID := mediaID, title := "Sketch", description := "", time := 0 }

/-- The cell is reused once all that it was waiting for has come. -/
def reusedInTime : List Event :=
  [.configure (postBy "ann" "1" "1"), .imageLoaded, .replied 0 { currentUser := some "cy" },
   .avatarLoaded, .configure (postBy "cy" "3" "3"), .replied 0 { currentUser := some "cy" },
   .avatarLoaded, .imageLoaded]

theorem cells_show_current_reused :
    (∃ s : CellRun PostTableViewCell,
      (cellRun postCell annAndCy).Steps (fun _ _ => True) { cell := postCell.new } reusedInTime s ∧
        s.Shows postCell annAndCy (postBy "cy" "3" "3")) ∧
    ∃ t : CellRun ModerationPostTableViewCell,
      (cellRun moderationPostCell annAndCy).Steps (fun _ _ => True)
        { cell := moderationPostCell.new } reusedInTime t ∧
          t.Shows moderationPostCell annAndCy (postBy "cy" "3" "3") := by
  obtain ⟨s, hs, hp⟩ := (cellRun postCell annAndCy).exists_of_run { cell := postCell.new }
    reusedInTime (fun s => decide (s.Settled postCell ∧ s.post = some (postBy "cy" "3" "3") ∧
      s.Quiet annAndCy (postBy "cy" "3" "3"))) (by decide +kernel)
  obtain ⟨t, ht, hq⟩ := (cellRun moderationPostCell annAndCy).exists_of_run
    { cell := moderationPostCell.new } reusedInTime
    (fun t => decide (t.Settled moderationPostCell ∧ t.post = some (postBy "cy" "3" "3") ∧
      t.Quiet annAndCy (postBy "cy" "3" "3"))) (by decide +kernel)
  obtain ⟨hsettled, hpost, hquiet⟩ := of_decide_eq_true hp
  obtain ⟨hsettled', hpost', hquiet'⟩ := of_decide_eq_true hq
  have hcy : annAndCy.users (postBy "cy" "3" "3").opID ≠ none := Option.some_ne_none _
  obtain ⟨hcell, hmoderation⟩ := cells_show_current annAndCy reusedInTime s t _
  exact ⟨⟨s, hs, (hcell hs hsettled hpost).2 (hquiet.undisturbed hcy)⟩,
    t, ht, (hmoderation ht hsettled' hpost').2 (hquiet'.undisturbed hcy)⟩

/-- The cell is reused twice; the answers come in the reverse order, the downloads at the end. -/
def reusedTwice : List Event :=
  [.configure (postBy "ann" "1" "1"), .configure (postBy "bob" "2" ""),
   .configure (postBy "cy" "3" ""), .replied 2 { currentUser := some "cy" },
   .replied 1 { currentUser := some "cy" }, .replied 0 { currentUser := some "cy" },
   .imageLoaded, .avatarLoaded]

/-- The avatar and the picture of the first post and the title of the second. -/
def ShowsEarlier {σ : Type} (C : ImageCell σ) (s : CellRun σ) : Prop :=
  (C.userImageView s.cell).image = some (.stored "avatars/7") ∧
    (C.postImageView s.cell).image = some (.stored "posts/1") ∧
    C.titleText s.cell = Constants.postNotFoundError

instance {σ : Type} (C : ImageCell σ) (s : CellRun σ) : Decidable (ShowsEarlier C s) :=
  inferInstanceAs (Decidable (_ ∧ _))

theorem ShowsEarlier.not_shows {C : ImageCell σ} (h : ShowsEarlier C s) :
    ¬ s.Shows C annAndCy (postBy "cy" "3" "") := by
  intro hshows
  have htitle := hshows.title
  rw [h.2.2] at htitle
  exact absurd htitle (by decide)

/-- **A reused cell** shows the avatar and the picture of one earlier post and, as its title, that
another was not found. -/
theorem cells_show_earlier :
    (∃ s, (cellRun postCell annAndCy).Steps (fun _ _ => True) { cell := postCell.new } reusedTwice
      s ∧ (s.Settled postCell ∧ s.post = some (postBy "cy" "3" "") ∧ ShowsEarlier postCell s) ∧
        ¬ s.Shows postCell annAndCy (postBy "cy" "3" "")) ∧
    ∃ t, (cellRun moderationPostCell annAndCy).Steps (fun _ _ => True)
      { cell := moderationPostCell.new } reusedTwice t ∧ (t.Settled moderationPostCell ∧
        t.post = some (postBy "cy" "3" "") ∧ ShowsEarlier moderationPostCell t) ∧
          ¬ t.Shows moderationPostCell annAndCy (postBy "cy" "3" "") := by
  constructor
  · obtain ⟨s, hs, hp⟩ := (cellRun postCell annAndCy).exists_of_run { cell := postCell.new }
      reusedTwice (fun s => decide (s.Settled postCell ∧ s.post = some (postBy "cy" "3" "") ∧
        ShowsEarlier postCell s)) (by decide +kernel)
    have hearlier := of_decide_eq_true hp
    exact ⟨s, hs, hearlier, hearlier.2.2.not_shows⟩
  · obtain ⟨t, ht, hp⟩ := (cellRun moderationPostCell annAndCy).exists_of_run
      { cell := moderationPostCell.new } reusedTwice
      (fun t => decide (t.Settled moderationPostCell ∧ t.post = some (postBy "cy" "3" "") ∧
        ShowsEarlier moderationPostCell t)) (by decide +kernel)
    have hearlier := of_decide_eq_true hp
    exact ⟨t, ht, hearlier, hearlier.2.2.not_shows⟩

end CellRun

end ArtsExplorer
