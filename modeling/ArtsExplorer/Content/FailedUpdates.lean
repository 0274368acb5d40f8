import ArtsExplorer.Content.Schema
import ArtsExplorer.Profile.Edit

/-!
# Updates that fail

An approval, a press of a save button and the commit of a profile edit change their screen at once
and send an `updateData`. No such call has a completion, so when its failure arrives at the process
nothing happens (`eq_mark_of_deliver`), whereas the failure of a denial is reported
(`denial_reported`). So the screen agrees with the stored document afterwards if and only if its own
loader, run on that document, would change nothing of what the update was about
(`failures_handled`).
-/

namespace ArtsExplorer

open Foundations

/-- What a profile shows outside edit mode, and what a cancel leads back to. -/
def UserProfileViewController.settled (v : UserProfileViewController) : Values :=
  if v.editingMode then
    { name := v.originalNameText, bio := v.originalBioText, picture := v.originalAvatar }
  else { name := v.selfName, bio := v.selfBio, picture := v.selfProfilePicture.image }

/-- The picture of an avatar. -/
def avatarImage (avatarID : String) : UIImage :=
  if avatarID ≠ "" then .stored ("avatars/" ++ avatarID) else placeholderProfile

/-- What an image shows: for the image of an object, the picture that was uploaded. -/
def UIImage.content (objects : String → Option UIImage) : UIImage → Option UIImage
  | .stored path => objects path
  | image => some image

/-- Two images are the same, or show the same picture. -/
def SamePicture (objects : String → Option UIImage) (x y : Option UIImage) : Prop :=
  x = y ∨ ∃ picture, x.bind (UIImage.content objects) = some picture ∧
    y.bind (UIImage.content objects) = some picture

/-- The screen shows what document `id`, which is `d`, says about the fields of an update. -/
structure Screen.ShowsStored (objects : String → Option UIImage) (scr : Screen) (id : String)
    (d : Document) (ups : List (String × FieldValue)) : Prop where
  list : "approved" ∈ ups.map Prod.fst → d "approved" = some (.bool false) → scr.Lists id
  icon : ∀ p v, ("savedPosts", v) ∈ ups → v = .arrayUnion [p] ∨ v = .arrayRemove [p] →
    ∀ l, scr.listing = some l → ∀ cell ∈ l.cells, cell.row ≠ none → cell.postID = p →
      cell.saveButton.backgroundImage =
        if p ∈ Value.elements (d "savedPosts") then "bookmark.fill" else "bookmark"
  name : "name" ∈ ups.map Prod.fst → ∀ v, scr = .userProfile v →
    d "name" = some (.string v.settled.name)
  bio : "bio" ∈ ups.map Prod.fst → ∀ v, scr = .userProfile v →
    d "bio" = some (.string v.settled.bio)
  avatar : "avatarID" ∈ ups.map Prod.fst → ∀ v, scr = .userProfile v →
    ∃ avatarID, d "avatarID" = some (.string avatarID) ∧
      SamePicture objects v.settled.picture (some (avatarImage avatarID))

/-- The screen's own loader, run on `d`, would change nothing of what an update is about. -/
structure Screen.UpToDate (objects : String → Option UIImage) (scr : Screen) (id : String)
    (d : Document) (ups : List (String × FieldValue)) : Prop where
  posts : "approved" ∈ ups.map Prod.fst → ∀ v, scr = .moderationPosts v →
    (∀ q ∈ moderationPost.pending.filters, q.Matches d) → ∃ x ∈ v.items, x.id = id
  comments : "approved" ∈ ups.map Prod.fst → ∀ v, scr = .moderationComments v →
    (∀ q ∈ moderationComment.pending.filters, q.Matches d) → ∃ x ∈ v.items, x.commentID = id
  cells : ∀ p v, ("savedPosts", v) ∈ ups → v = .arrayUnion [p] ∨ v = .arrayRemove [p] →
    ∀ l, scr.listing = some l → ∀ cell ∈ l.cells, cell.row ≠ none → cell.postID = p →
      cell.fillSaveButtonsReply (some d) = .ok cell
  info : ∀ v v' es, scr = .userProfile v →
    ({} : UserProfileViewController).loadInfoReply (some d) = .ok (v', es) →
    ("name" ∈ ups.map Prod.fst → v'.selfName = v.settled.name) ∧
      ("bio" ∈ ups.map Prod.fst → v'.selfBio = v.settled.bio) ∧
      ("avatarID" ∈ ups.map Prod.fst → SamePicture objects v.settled.picture
        (v'.selfProfilePicture.finishLoad true).image)

/-! ## The loaders -/

section Loaders

variable {d : Document}

/-- A fill leaves a cell as it is if and only if the icon is that of the stored list. -/
theorem fillSaveButtonsReply_eq_self_iff {cell : PostTableViewCell} {savedPosts : List String}
    (h : d "savedPosts" = some (.array savedPosts)) :
    cell.fillSaveButtonsReply (some d) = .ok cell ↔
      cell.saveButton.backgroundImage =
        if cell.postID ∈ savedPosts then "bookmark.fill" else "bookmark" := by
  have hfill : cell.fillSaveButtonsReply (some d) = .ok { cell with
      saveButton := { cell.saveButton with backgroundImage :=
        if cell.postID ∈ savedPosts then "bookmark.fill" else "bookmark" } } := by
    simp only [PostTableViewCell.fillSaveButtonsReply, getArray_eq_ok.2 h]
    rfl
  rw [hfill]
  constructor
  · intro heq
    have hcell := congrArg (fun x => x.saveButton.backgroundImage) (Except.ok.inj heq)
    exact hcell.symm
  · intro heq
    rw [← heq]

/-- What a new profile screen shows of a document, once the picture is there. -/
theorem loadInfoReply_new {name bio avatarID : String} (hname : d "name" = some (.string name))
    (hbio : d "bio" = some (.string bio)) (havatar : d "avatarID" = some (.string avatarID)) :
    ∃ v, ({} : UserProfileViewController).loadInfoReply (some d) = .ok (v, []) ∧
      v.selfName = name ∧ v.selfBio = bio ∧
        (v.selfProfilePicture.finishLoad true).image = some (avatarImage avatarID) := by
  simp only [UserProfileViewController.loadInfoReply, getString_eq_ok.2 hname,
    getString_eq_ok.2 hbio, getString_eq_ok.2 havatar]
  refine ⟨_, rfl, rfl, rfl, ?_⟩
  by_cases hempty : avatarID = ""
  · simp only [hempty, ne_eq, not_true_eq_false, if_false, avatarImage]
    rfl
  · simp only [ne_eq, hempty, not_false_eq_true, if_true, avatarImage]
    rfl

namespace Screen

variable {objects : String → Option UIImage} {scr : Screen} {id : String} {v : FieldValue}
  {ups : List (String × FieldValue)}

/-- The approval of a document: a moderation screen lists it, or it is not pending. -/
theorem showsStored_iff_of_approve
    (hkind : scr.kind = .moderationPosts ∨ scr.kind = .moderationComments) :
    scr.ShowsStored objects id d [("approved", v)] ↔
      scr.UpToDate objects id d [("approved", v)] := by
  have hkey : "approved" ∈ [("approved", v)].map Prod.fst := List.mem_singleton_self _
  have hother : ∀ key, key ≠ "approved" → key ∉ [("approved", v)].map Prod.fst :=
    fun key hne hmem => hne (List.mem_singleton.1 hmem)
  have hsaved : ∀ w, ("savedPosts", w) ∉ [("approved", v)] :=
    fun w hmem => hother "savedPosts" (by decide) (List.mem_map_of_mem hmem)
  have hname := hother "name" (by decide)
  have hbio := hother "bio" (by decide)
  have havatar := hother "avatarID" (by decide)
  constructor
  · refine fun h => ⟨?_, ?_, fun p w hmem => absurd hmem (hsaved w), fun w w' es _ _ => ?_⟩
    · rintro - w rfl hq
      exact h.list hkey (hq _ (List.mem_singleton_self _))
    · rintro - w rfl hq
      exact h.list hkey (hq _ (List.mem_singleton_self _))
    · exact ⟨fun hmem => absurd hmem hname, fun hmem => absurd hmem hbio,
        fun hmem => absurd hmem havatar⟩
  · refine fun h => ⟨fun _ hpending => ?_, fun p w hmem => absurd hmem (hsaved w),
      fun hmem => absurd hmem hname, fun hmem => absurd hmem hbio, fun hmem => absurd hmem havatar⟩
    cases scr with
    | moderationPosts w =>
      exact h.posts hkey w rfl fun q hq => by cases List.mem_singleton.1 hq; exact hpending
    | moderationComments w =>
      exact h.comments hkey w rfl fun q hq => by cases List.mem_singleton.1 hq; exact hpending
    | _ => rcases hkind with hkind | hkind <;> cases hkind

/-- The other updates, which are of user documents. -/
theorem showsStored_iff_of_user (hups : "approved" ∉ ups.map Prod.fst)
    (hd : d.Conforms (CollectionName.schema .users)) :
    scr.ShowsStored objects id d ups ↔ scr.UpToDate objects id d ups := by
  obtain ⟨savedPosts, hsaved⟩ := hd.array (k := "savedPosts") (by decide)
  obtain ⟨name, hname⟩ := hd.string (k := "name") (by decide)
  obtain ⟨bio, hbio⟩ := hd.string (k := "bio") (by decide)
  obtain ⟨avatarID, havatar⟩ := hd.string (k := "avatarID") (by decide)
  obtain ⟨new, hnew, hn, hb, ha⟩ := loadInfoReply_new hname hbio havatar
  constructor
  · refine fun h => ⟨fun hmem => absurd hmem hups, fun hmem => absurd hmem hups,
      fun p w hmem hw l hl cell hcell hrow hp => ?_, ?_⟩
    · have hicon := h.icon p w hmem hw l hl cell hcell hrow hp
      rw [fillSaveButtonsReply_eq_self_iff hsaved, hicon, hsaved, hp]
      rfl
    · rintro w w' es rfl hw'
      cases hnew.symm.trans hw'
      refine ⟨fun hmem => ?_, fun hmem => ?_, fun hmem => ?_⟩
      · cases hname.symm.trans (h.name hmem w rfl)
        exact hn
      · cases hbio.symm.trans (h.bio hmem w rfl)
        exact hb
      · obtain ⟨avatarID', havatar', hsame⟩ := h.avatar hmem w rfl
        cases havatar.symm.trans havatar'
        rw [ha]
        exact hsame
  · refine fun h => ⟨fun hmem => absurd hmem hups,
      fun p w hmem hw l hl cell hcell hrow hp => ?_, ?_, ?_, ?_⟩
    · have hfill := h.cells p w hmem hw l hl cell hcell hrow hp
      rw [(fillSaveButtonsReply_eq_self_iff hsaved).1 hfill, hsaved, hp]
      rfl
    · rintro hmem w rfl
      rw [← (h.info w new [] rfl hnew).1 hmem, hn]
      exact hname
    · rintro hmem w rfl
      rw [← (h.info w new [] rfl hnew).2.1 hmem, hb]
      exact hbio
    · rintro hmem w rfl
      refine ⟨avatarID, havatar, ?_⟩
      rw [← ha]
      exact (h.info w new [] rfl hnew).2.2 hmem

end Screen

end Loaders

namespace System

variable {ι : Type} {s t : System ι} {f : Flight ι} {nd : Node} {n : CollectionName} {id : String}
  {d : Document} {ups : List (String × FieldValue)} {i date : ℕ}

/-! ## The law -/

/-- The answer of call `i` is the failure of an update, whose process is still there; the screen
that made the update need not be in its window any more. -/
structure FailureArrives (s : System ι) (i : ℕ) (f : Flight ι) (nd : Node) (n : CollectionName)
    (id : String) (ups : List (String × FieldValue)) : Prop where
  call : s.net[i]? = some f
  request : f.request = .updateData n id ups
  failed : ∃ error, f.reply = some (.completion (some error))
  alive : s.Alive f
  node : s.At f.client f.node nd

/-- A failed update is taken back: the screen shows the stored document, if it is there. -/
def Restored (s : System ι) (f : Flight ι) (n : CollectionName) (id : String)
    (ups : List (String × FieldValue)) : Prop :=
  ∀ nd d, s.At f.client f.node nd → (s.store n).lookup id = some d →
    nd.screen.ShowsStored s.objects id d ups

/-- From `s` to `t`, the device that made a call has shown an alert. -/
def Reported (s t : System ι) (f : Flight ι) : Prop :=
  (s.clients f.client).alerts.length < (t.clients f.client).alerts.length

variable [DecidableEq ι]

/-- A step that hands over the failure of an update restores the screen or reports it. -/
def HandlesFailure (s : System ι) (e : Event ι) : Prop :=
  ∀ i date f nd n id ups, e = .deliver i date → s.FailureArrives i f nd n id ups →
    ∀ t, s.step e = some t → t.Restored f n id ups ∨ s.Reported t f

omit [DecidableEq ι] in
/-- When the failure of an update is to be handed over, the screen is up to date. -/
def FindsUpToDate (s : System ι) (e : Event ι) : Prop :=
  ∀ i date f nd n id ups, e = .deliver i date → s.FailureArrives i f nd n id ups →
    ∀ d, (s.store n).lookup id = some d → nd.screen.UpToDate s.objects id d ups

/-! ## The delivery -/

/-- **The failure of an update changes nothing.** -/
theorem eq_mark_of_deliver (h : s.FailureArrives i f nd n id ups)
    (hs : s.step (.deliver i date) = some t) : t = s.mark i f := by
  obtain ⟨error, herr⟩ := h.failed
  obtain ⟨g, r, hg, hr, -, ⟨hdead, -⟩ | ⟨-, u, rfl, hcases⟩⟩ := deliver_cases hs
  all_goals cases Option.some.inj (h.call.symm.trans hg)
  · exact absurd h.alive hdead
  · cases Option.some.inj (herr.symm.trans hr)
    rcases hcases with ⟨rfl, -⟩ | ⟨k, nd', res, hk, -⟩
    · rfl
    · rw [h.request] at hk
      cases hk

/-- So it is handled if and only if the screen shows the stored document already. -/
theorem handlesFailure_iff {e : Event ι} (hs : s.step e = some t) :
    s.HandlesFailure e ↔ ∀ i date f nd n id ups, e = .deliver i date →
      s.FailureArrives i f nd n id ups →
        ∀ d, (s.store n).lookup id = some d → nd.screen.ShowsStored s.objects id d ups := by
  constructor
  · rintro h i date f nd n id ups rfl hf d hd
    obtain rfl := eq_mark_of_deliver hf hs
    rcases h i date f nd n id ups rfl hf _ hs with h | h
    · exact h nd d hf.node hd
    · exact absurd h (lt_irrefl _)
  · rintro h i date f nd n id ups rfl hf u hu
    obtain rfl := eq_mark_of_deliver hf hu
    refine .inl fun nd' d hn hd => ?_
    cases Option.some.inj (hf.node.symm.trans hn)
    exact h i date f _ n id ups rfl hf d hd

/-- The completion of a denial that failed. -/
theorem receive_denied_failed {scr : Screen} (env : Env) (row : ℕ) (error : String)
    (hkind : scr.kind = .moderationPosts ∨ scr.kind = .moderationComments) :
    ∃ message, scr.receive env (.denied row) (.completion (some error)) =
      some (.ok (scr, [.createAlert "Error" message])) := by
  cases scr with
  | moderationPosts v => exact ⟨_, rfl⟩
  | moderationComments v => exact ⟨_, rfl⟩
  | _ => rcases hkind with hkind | hkind <;> cases hkind

/-- A handler that alerts. -/
theorem reported_handle (env : Env) (k : ℕ) (scr : Screen) (title message : String) :
    s.Reported (s.handle f.client k env (.ok (scr, [.createAlert title message]))) f := by
  simp only [Reported, handle, perform, performOne, clients_modify, if_true, Client.setScreen,
    List.length_append, List.length_singleton]
  exact Nat.lt_succ_self _

/-- **The failure of a denial is reported**, unlike that of an approval. -/
theorem denial_reported {row : ℕ} {error : String} (hf : s.net[i]? = some f)
    (hreq : f.request = .delete n id (.denied row))
    (hr : f.reply = some (.completion (some error))) (halive : s.Alive f)
    (hn : s.At f.client f.node nd)
    (hkind : nd.screen.kind = .moderationPosts ∨ nd.screen.kind = .moderationComments)
    (hs : s.step (.deliver i date) = some t) : s.Reported t f := by
  obtain ⟨g, r, hg, hr', -, ⟨hdead, -⟩ | ⟨-, u, rfl, hcases⟩⟩ := deliver_cases hs
  all_goals cases Option.some.inj (hf.symm.trans hg)
  · exact absurd halive hdead
  · cases Option.some.inj (hr.symm.trans hr')
    have hk : f.request.callback = some (.denied row) := by
      rw [hreq]
      rfl
    rcases hcases with ⟨-, hnone⟩ | ⟨k, nd', res, hk', hn', hres, rfl⟩
    · obtain ⟨message, hsome⟩ := receive_denied_failed _ row error hkind
      cases hsome.symm.trans (hnone _ _ hk hn)
    · cases Option.some.inj (hk.symm.trans hk')
      cases Option.some.inj (hn.symm.trans hn')
      obtain ⟨message, hsome⟩ := receive_denied_failed _ row error hkind
      cases hsome.symm.trans hres
      exact reported_handle (s := s.mark i f) _ f.node nd.screen "Error" message

/-! ## Whole runs -/

/-- The updates of the app are handled if and only if they find their screen up to date. -/
theorem FailureArrives.showsStored_iff (hs : (machine ι).Reachable s)
    (h : s.FailureArrives i f nd n id ups) (hd : (s.store n).lookup id = some d) :
    nd.screen.ShowsStored s.objects id d ups ↔ nd.screen.UpToDate s.objects id d ups := by
  have hinv : s.Inv False := reachable_inv (hs.mono fun _ _ _ => False.elim)
  have hconf := (reachable_typed hs).held n d (.inl ⟨id, hd⟩)
  have hcalls := hinv.calls f (List.mem_of_getElem? h.call)
  rw [h.request] at hcalls
  rcases hcalls.updateData_cases with ⟨rfl, hups, -⟩ | ⟨rfl, -, p, v, rfl, -⟩ | ⟨rfl, hmod, -⟩
  · refine Screen.showsStored_iff_of_user (fun hmem => ?_) hconf
    rcases hups _ hmem with h | h | h <;> exact absurd h (by decide)
  · refine Screen.showsStored_iff_of_user (fun hmem => ?_) hconf
    have hkey : "approved" = "savedPosts" := List.mem_singleton.1 hmem
    exact absurd hkey (by decide)
  · obtain ⟨nd', m, hn, hm, -⟩ := hmod
    cases Option.some.inj (h.node.symm.trans hn)
    refine Screen.showsStored_iff_of_approve ?_
    generalize nd.screen.kind = kind at hm
    cases hm with
    | posts => exact .inl rfl
    | comments => exact .inr rfl

/-- Mo approves Ann's post, and the backend refuses. -/
def refusedApproval : List (Event ℕ) :=
  pendingPostEvents ++
    [.act 1 5 (.approve 0) {}, .serve 8 (.failure "Missing or insufficient permissions.")]

/-- The error of a completion. -/
def completionError : Reply → Option String
  | .completion error => error
  | .document _ | .documents _ | .auth _ => none

theorem eq_of_completionError {r : Reply} {error : String} (h : completionError r = some error) :
    r = .completion (some error) := by
  cases r with
  | completion e =>
    rw [completionError] at h
    rw [h]
  | _ => cases h

instance (scr : Screen) (id : String) : Decidable (scr.Lists id) := by
  unfold Screen.Lists
  split <;> infer_instance

/-- Call 8 is an approval of the post that has failed, and Mo's screen does not list the post, which
is pending. -/
def ApprovalRefused (s : System ℕ) : Prop :=
  (∃ f ∈ s.net[8]?, f.request = approveRequest .posts "post" ∧ f.client = 1 ∧ f.node = 5 ∧
      s.Alive f ∧ (f.reply.bind completionError).isSome) ∧
    (∃ nd ∈ (s.clients 1).nodes[5]?, ¬ nd.screen.Lists "post") ∧
    ∃ d ∈ (s.store .posts).lookup "post", d "approved" = some (.bool false)

instance (s : System ℕ) : Decidable s.ApprovalRefused := by
  unfold ApprovalRefused
  infer_instance

/-- Max denies Ann's post, and Mo approves it from the list he loaded before. -/
def approvalOfDenied : List (Event ℕ) :=
  pendingPostEvents ++ logInEvents 2 8 "max@cis.edu.hk" "pass" ++ moderateEvents 2 10 3 ++
  [.act 2 5 (.deny 0) {}, .serve 12 .success, .deliver 12 0, .act 1 5 (.approve 0) {}] ++
  answerEvents 13

/-- No update is answered while its document is there. -/
def answersGone (s : System ℕ) : Event ℕ → Bool
  | .deliver i _ =>
    (s.net[i]?).all fun f =>
      match f.request with
      | .updateData n id _ => ((s.store n).lookup id).isNone
      | _ => true
  | _ => true

theorem findsUpToDate_of_answersGone (s : System ℕ) (e : Event ℕ) (h : s.answersGone e = true) :
    s.FindsUpToDate e := by
  rintro i date f nd n id ups rfl hf d hd
  rw [answersGone, hf.call, Option.all_some, hf.request] at h
  have hnone := Option.isNone_iff_eq_none.1 h
  cases hd.symm.trans hnone

end System

end ArtsExplorer
