import ArtsExplorer.Foundations.Machine
import ArtsExplorer.App.Decoding
import Mathlib.Data.List.Perm.Basic

/-!
# The saved posts

`savedScreen st` is a saved screen from `viewDidLoad` on, over a store `st` that does not change.
The user pulls to refresh at any time; the reads of the user document and of the posts that are
outstanding are answered in any order.

A load empties the array when its user document arrives, and then appends each post as it arrives.
What an older load has still outstanding at that moment arrives later and stays. So the array ends
up as the saved posts, each once, if and only if no existing post was being read when the last user
document arrived (`saved_converges`); otherwise posts are listed twice (`saved_twice`).
-/

namespace ArtsExplorer

open Foundations

/-- What the reads of one user find: the user document with the saved posts, and the posts. -/
structure SavedStore where
  uid : String
  user : Document
  savedPosts : List String
  post : String → Option Document
  user_savedPosts : user "savedPosts" = some (.array savedPosts)
  nodup : savedPosts.Nodup
  post_id : ∀ id d, post id = some d → ∃ p, AEPost.ofDocument d = .ok p ∧ p.id = id

/-- The documents of collection `n` that some effects read by their ids. -/
def documentReads (n : CollectionName) (es : List Effect) : List String :=
  es.filterMap fun
    | .request (.getDocument m id _) => if m = n then some id else none
    | _ => none

/-- A saved screen with its outstanding reads. -/
structure SavedScreen where
  screen : SavedViewController := {}
  userReads : List String := []
  postReads : List String := []
  fault : Option Fault := none

namespace SavedScreen

inductive Event
  | refresh
  /-- A read of the user document is answered. -/
  | userReplied
  /-- The `i`-th outstanding read of a post is answered. -/
  | postReplied (i : ℕ)

variable (st : SavedStore) (s : SavedScreen)

/-- The result of a handler. -/
def after : Except Fault (After SavedViewController) → SavedScreen
  | .error f => { s with fault := some f }
  | .ok (screen, es) =>
    { s with
      screen := screen
      userReads := s.userReads ++ documentReads .users es
      postReads := s.postReads ++ documentReads .posts es }

/-- The screen after `viewDidLoad()`. -/
def viewDidLoad : SavedScreen :=
  ({} : SavedScreen).after (SavedViewController.viewDidLoad { currentUser := some st.uid })

/-- What an event does while the process runs. -/
def react : Event → Option SavedScreen
  | .refresh =>
    some (s.after ((SavedViewController.loadSavedPosts { currentUser := some st.uid }).map fun es =>
      (s.screen, es)))
  | .userReplied =>
    match s.userReads with
    | _ :: reads =>
      some ({ s with userReads := reads }.after (s.screen.savedUserReply (some st.user)))
    | [] => none
  | .postReplied i =>
    match s.postReads[i]? with
    | some id =>
      some ({ s with postReads := s.postReads.eraseIdx i }.after
        (s.screen.savedPostReply (st.post id)))
    | none => none

def step (e : Event) : Option SavedScreen := if s.fault = none then s.react st e else none

end SavedScreen

/-- The machine of a saved screen. -/
def savedScreen (st : SavedStore) : Machine SavedScreen SavedScreen.Event where
  Initial s := s = SavedScreen.viewDidLoad st
  step := SavedScreen.step st

/-! ## The posts of a list of reads -/

namespace SavedStore

variable (st : SavedStore)

/-- The post that a read of `id` finds. -/
def read (id : String) : Option AEPost := (st.post id).bind fun d => (AEPost.ofDocument d).toOption

/-- The posts that some reads find. -/
def posts (ids : List String) : List AEPost := ids.filterMap st.read

variable {st}

theorem read_eq_none {id : String} : st.read id = none ↔ st.post id = none := by
  unfold read
  cases h : st.post id with
  | none => simp
  | some d =>
    obtain ⟨p, hp, -⟩ := st.post_id id d h
    simp [hp, Except.toOption]

theorem posts_eq_nil {ids : List String} : st.posts ids = [] ↔ ∀ id ∈ ids, st.post id = none := by
  simp only [posts, List.filterMap_eq_nil_iff, read_eq_none]

theorem posts_append (ids ids' : List String) :
    st.posts (ids ++ ids') = st.posts ids ++ st.posts ids' :=
  List.filterMap_append

/-- A read that is taken out of a list takes its post with it. -/
theorem posts_eraseIdx {ids : List String} {i : ℕ} {id : String} (h : ids[i]? = some id) :
    (st.posts ids).Perm ((st.read id).toList ++ st.posts (ids.eraseIdx i)) := by
  obtain ⟨hlt, rfl⟩ := List.getElem?_eq_some_iff.1 h
  refine ((List.getElem_cons_eraseIdx_perm hlt).symm.filterMap st.read).trans ?_
  cases hr : st.read ids[i] with
  | none => simp [posts, hr]
  | some p => simp [posts, hr]

theorem map_id_posts (ids : List String) :
    (st.posts ids).map AEPost.id = ids.filter fun id => (st.post id).isSome := by
  induction ids with
  | nil => rfl
  | cons id ids ih =>
    rw [posts] at ih ⊢
    rw [List.filterMap_cons, List.filter_cons]
    cases hd : st.post id with
    | none => simpa [read_eq_none.2 hd] using ih
    | some d =>
      obtain ⟨p, hp, hid⟩ := st.post_id id d hd
      have hr : st.read id = some p := by simp [read, hd, hp, Except.toOption]
      simpa [hr, hid] using ih

/-- The saved posts that exist are different posts. -/
theorem nodup_posts : ((st.posts st.savedPosts).map AEPost.id).Nodup := by
  rw [map_id_posts]
  exact st.nodup.filter _

end SavedStore

/-! ## The steps -/

namespace SavedScreen

variable {st : SavedStore} {s t : SavedScreen} {e : Event}

/-- The posts on the screen. -/
def items (s : SavedScreen) : List AEPost := s.screen.listing.postsToShow.items

theorem documentReads_savedPosts (n : CollectionName) (ids : List String) :
    documentReads n (ids.map fun postID => .request (.getDocument .posts postID .savedPost)) =
      if n = .posts then ids else [] := by
  induction ids with
  | nil => simp [documentReads]
  | cons id ids ih =>
    unfold documentReads at ih ⊢
    rw [List.map_cons, List.filterMap_cons, ih]
    cases n <;> rfl

/-- What a step does. -/
inductive Outcome (st : SavedStore) (s : SavedScreen) : Event → SavedScreen → Prop
  | refreshed : Outcome st s .refresh { s with userReads := s.userReads ++ [st.uid] }
  | user (u : String) (reads : List String) (hu : s.userReads = u :: reads) :
      Outcome st s .userReplied
        { s with
          screen := { listing := s.screen.listing.removeAll, savedPosts := st.savedPosts }
          userReads := reads
          postReads := s.postReads ++ st.savedPosts }
  | post (i : ℕ) (id : String) (listing : PostListing) (hi : s.postReads[i]? = some id)
      (hrows : listing.postsToShow.Aligned)
      (hitems : listing.postsToShow.items = s.items ++ (st.read id).toList) :
      Outcome st s (.postReplied i)
        { s with
          screen := { s.screen with listing := listing }
          postReads := s.postReads.eraseIdx i }

theorem step_cases (hrows : s.screen.listing.postsToShow.Aligned) (h : s.step st e = some t) :
    Outcome st s e t := by
  unfold step at h
  split_ifs at h with hf
  cases e with
  | refresh =>
    cases h
    simpa [after, SavedViewController.loadSavedPosts, Env.uid, Except.map, bind, Except.bind, pure,
      Except.pure, documentReads] using @Outcome.refreshed st s
  | userReplied =>
    simp only [react] at h
    split at h
    · next u reads hu =>
      cases h
      simpa [after, SavedViewController.savedUserReply, getArray_eq_ok.2 st.user_savedPosts, bind,
        Except.bind, pure, Except.pure, documentReads_savedPosts] using Outcome.user u reads hu
    · cases h
  | postReplied i =>
    simp only [react] at h
    split at h
    · next id hi =>
      cases h
      cases hd : st.post id with
      | none =>
        have hpost := @Outcome.post st s i id s.screen.listing hi hrows
          (by simp [items, SavedStore.read, hd])
        simpa [after, SavedViewController.savedPostReply, documentReads] using hpost
      | some d =>
        obtain ⟨p, hp, -⟩ := st.post_id id d hd
        obtain ⟨rows, happ, hitems, hal⟩ := RowList.appendAll_of_aligned hrows [p]
        have hpost := @Outcome.post st s i id { s.screen.listing with postsToShow := rows } hi hal
          (by simp [items, SavedStore.read, hd, hp, hitems, Except.toOption])
        simpa [after, SavedViewController.savedPostReply, PostListing.showAll, decodeAll, hp, happ,
          trapping, bind, Except.bind, pure, Except.pure, documentReads] using hpost
    · cases h

/-! ## What the loads leave -/

/-- The reads of posts that are outstanding when a user document arrives. -/
def overlapped (s : SavedScreen) : Event → List (List String)
  | .userReplied => [s.postReads]
  | .refresh | .postReplied _ => []

/-- The posts on the screen and those on their way, if the user documents so far have found the
reads in `l` outstanding. -/
structure Loads (st : SavedStore) (l : List (List String)) (s : SavedScreen) : Prop where
  fault : s.fault = none
  rows : s.screen.listing.postsToShow.Aligned
  started : l = [] → s.userReads ≠ []
  posts : ∀ reads, l.getLast? = some reads →
    (s.items ++ st.posts s.postReads).Perm (st.posts reads ++ st.posts st.savedPosts)

variable {l : List (List String)}

theorem Loads.step (h : s.Loads st l) (hs : s.step st e = some t) :
    t.Loads st (l ++ s.overlapped e) := by
  have ho := step_cases h.rows hs
  cases ho with
  | refreshed =>
    rw [overlapped, List.append_nil]
    exact ⟨h.fault, h.rows, fun _ => by simp, h.posts⟩
  | user u reads hu =>
    refine ⟨h.fault, s.screen.listing.postsToShow.aligned_removeAll,
      fun hl => by simp [overlapped] at hl, fun reads hl => ?_⟩
    rw [overlapped, List.getLast?_append_of_ne_nil _ (List.cons_ne_nil _ _)] at hl
    cases hl
    rw [← SavedStore.posts_append]
    exact .refl _
  | post i id listing hi hrows hitems =>
    rw [overlapped, List.append_nil]
    refine ⟨h.fault, hrows, h.started, fun reads hl => ?_⟩
    refine List.Perm.trans ?_ (h.posts reads hl)
    -- the post moves from the reads to the screen
    have hmove := (st.posts_eraseIdx hi).symm.append_left s.items
    rw [← List.append_assoc, ← hitems] at hmove
    exact hmove

theorem loads_log {es : List Event}
    (h : (savedScreen st).Steps (fun _ _ => True) (viewDidLoad st) es t) :
    t.Loads st ((savedScreen st).log overlapped (viewDidLoad st) es) :=
  h.log_induct (I := fun l s => s.Loads st l) (.init rfl)
    ⟨rfl, rfl, fun _ => List.cons_ne_nil _ _, fun _ hl => by cases hl⟩
    fun _ _ _ _ _ ih _ hs => ih.step hs

/-- No read is outstanding. -/
def Quiet (s : SavedScreen) : Prop := s.userReads = [] ∧ s.postReads = []

instance (s : SavedScreen) : Decidable s.Quiet := inferInstanceAs (Decidable (_ ∧ _))

/-- Every saved post that exists is on the screen once, and nothing else is. -/
def ShowsSaved (st : SavedStore) (s : SavedScreen) : Prop :=
  (s.items.map AEPost.id).Nodup ∧ ∀ post, post ∈ s.items ↔
    ∃ id ∈ st.savedPosts, st.read id = some post

theorem showsSaved_iff : s.ShowsSaved st ↔ s.items.Perm (st.posts st.savedPosts) := by
  have hmem : ∀ post, post ∈ st.posts st.savedPosts ↔
    ∃ id ∈ st.savedPosts, st.read id = some post :=
    fun post => List.mem_filterMap
  constructor
  · rintro ⟨hn, hitems⟩
    refine (List.perm_ext_iff_of_nodup hn.of_map SavedStore.nodup_posts.of_map).2 fun post => ?_
    rw [hitems, hmem]
  · intro hp
    refine ⟨(hp.map AEPost.id).nodup_iff.2 SavedStore.nodup_posts, fun post => ?_⟩
    rw [hp.mem_iff, hmem]

/-- **Overlapping loads converge** if and only if no existing post was being read when the last user
document arrived. -/
theorem saved_converges {es : List Event}
    (h : (savedScreen st).Steps (fun _ _ => True) (viewDidLoad st) es t) (hq : t.Quiet) :
    t.ShowsSaved st ↔ ∀ reads, ((savedScreen st).log overlapped (viewDidLoad st) es).getLast? =
      some reads →
      ∀ id ∈ reads, st.post id = none := by
  have hloads := loads_log h
  have hne : (savedScreen st).log overlapped (viewDidLoad st) es ≠ [] :=
    fun hnil => hloads.started hnil hq.1
  obtain ⟨reads, hl⟩ := Option.isSome_iff_exists.1 (List.getLast?_isSome.2 hne)
  have hperm := hloads.posts reads hl
  rw [hq.2, show st.posts [] = [] from rfl, List.append_nil] at hperm
  simp only [showsSaved_iff, hl, Option.some.injEq, forall_eq', ← SavedStore.posts_eq_nil]
  constructor
  · intro hsaved
    have hlen := hperm.length_eq.symm.trans hsaved.length_eq
    rw [List.length_append] at hlen
    exact List.length_eq_zero_iff.1 (by omega)
  · intro hnil
    rwa [hnil, List.nil_append] at hperm

/-- Ann has saved one of two posts. -/
def annsSaved : SavedStore where
  uid := "ann"
  user := .ofFields [("savedPosts", .array ["1"])]
  savedPosts := ["1"]
  post id :=
    if id = "1" then some (.ofFields (postDocument "1" "bob" "Bob" [] "" "Sketch" "" 0)) else none
  user_savedPosts := rfl
  nodup := by decide
  post_id id d h := by
    split_ifs at h with hid
    cases h
    exact ⟨⟨"1", "bob", "Bob", true, [], "", "Sketch", "", 0⟩, rfl, hid.symm⟩

/-- A pull-to-refresh before the first load is finished. -/
def overlappingLoads : List Event :=
  [.refresh, .userReplied, .userReplied, .postReplied 0, .postReplied 0]

/-- **Overlapping loads list a post twice.** -/
theorem saved_twice : ∃ s, (savedScreen annsSaved).Steps (fun _ _ => True) (viewDidLoad annsSaved)
    overlappingLoads s ∧ s.Quiet ∧ ¬ s.ShowsSaved annsSaved := by
  obtain ⟨s, hs, hp⟩ :=
    (savedScreen annsSaved).exists_of_run (viewDidLoad annsSaved) overlappingLoads
    (fun s => decide (s.Quiet ∧ ¬ (s.items.map AEPost.id).Nodup))
    (by decide +kernel)
  obtain ⟨hq, hn⟩ := of_decide_eq_true hp
  exact ⟨s, hs, hq, fun hsaved => hn hsaved.1⟩

/-- The refresh comes when the first load is finished. -/
theorem saved_converges_one_by_one : ∃ s : SavedScreen, s.ShowsSaved annsSaved := by
  obtain ⟨s, hs, hp⟩ := (savedScreen annsSaved).exists_of_run (viewDidLoad annsSaved)
    [.userReplied, .postReplied 0, .refresh, .userReplied, .postReplied 0]
    (fun s => decide s.Quiet) (by decide +kernel)
  have hlog : ((savedScreen annsSaved).log overlapped (viewDidLoad annsSaved)
      [.userReplied, .postReplied 0, .refresh, .userReplied, .postReplied 0]).getLast? =
        some [] := by
    decide +kernel
  refine ⟨s, (saved_converges hs (of_decide_eq_true hp)).2 fun reads hl => ?_⟩
  rw [hlog] at hl
  cases hl
  simp

end SavedScreen

end ArtsExplorer
