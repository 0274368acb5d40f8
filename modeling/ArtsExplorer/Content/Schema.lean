import ArtsExplorer.App.ModerationPostTableViewCell
import ArtsExplorer.Content.Ownership
import ArtsExplorer.System.Handlers

/-!
# Every document can be decoded

The documents that are stored, and those in answers that were given before they changed or were
deleted, are `Held`. Every held document conforms to the schema of its collection
(`reachable_typed`): the app's writes create conforming documents, and its updates and those of an
administrator fit the schema. So no force cast of a reader fails, and what a reader rebuilds is what
the author of the document wrote (`stored_decodable`).
-/

namespace ArtsExplorer

open Foundations

/-! ## The field that no reader uses -/

/-- The readers do not look at `approved`. -/
theorem AEPost.ofDocument_congr {d d' : Document} (h : ∀ key, key ≠ "approved" → d key = d' key) :
    AEPost.ofDocument d = AEPost.ofDocument d' := by
  simp only [AEPost.ofDocument, getString, getArray, getTimestamp, h "id" (by decide),
    h "opID" (by decide), h "opName" (by decide), h "categories" (by decide),
    h "mediaID" (by decide),
    h "title" (by decide), h "description" (by decide), h "time" (by decide)]

theorem Comment.ofDocument_congr {d d' : Document} {a : Bool}
    (h : ∀ key, key ≠ "approved" → d key = d' key) :
    Comment.ofDocument a d = Comment.ofDocument a d' := by
  simp only [Comment.ofDocument, getString, getTimestamp, h "commentID" (by decide),
    h "message" (by decide), h "commenterName" (by decide), h "commenterID" (by decide),
    h "postID" (by decide), h "time" (by decide)]

/-! ## The fields of a write -/

/-- Every field of a post is that of a write, `approved` aside. -/
structure AEPost.MadeOf (post : AEPost) (fields : List (String × Value)) : Prop where
  id : fields.lookup "id" = some (.string post.id)
  opID : fields.lookup "opID" = some (.string post.opID)
  opName : fields.lookup "opName" = some (.string post.opName)
  categories : fields.lookup "categories" = some (.array post.categories)
  mediaID : fields.lookup "mediaID" = some (.string post.mediaID)
  title : fields.lookup "title" = some (.string post.title)
  description : fields.lookup "description" = some (.string post.description)
  time : fields.lookup "time" = some (.timestamp post.time)

theorem AEPost.MadeOf.of_ofDocument {post : AEPost} {fields : List (String × Value)}
    (h : AEPost.ofDocument (.ofFields fields) = .ok post) : post.MadeOf fields := by
  obtain ⟨hid, hopID, hopName, hcats, hmedia, htitle, hdesc, htime, -⟩ :=
    AEPost.ofDocument_eq_ok.1 h
  exact ⟨hid, hopID, hopName, hcats, hmedia, htitle, hdesc, htime⟩

/-- Every field of a comment is that of a write, `approved` aside. -/
structure Comment.MadeOf (comment : Comment) (fields : List (String × Value)) : Prop where
  commentID : fields.lookup "commentID" = some (.string comment.commentID)
  message : fields.lookup "message" = some (.string comment.message)
  commenterName : fields.lookup "commenterName" = some (.string comment.commenterName)
  commenterID : fields.lookup "commenterID" = some (.string comment.commenterID)
  postID : fields.lookup "postID" = some (.string comment.postID)
  time : fields.lookup "time" = some (.timestamp comment.time)

theorem Comment.MadeOf.of_ofDocument {a : Bool} {comment : Comment} {fields : List (String × Value)}
    (h : Comment.ofDocument a (.ofFields fields) = .ok comment) : comment.MadeOf fields := by
  obtain ⟨hid, hmessage, hname, hcommenter, hpost, htime, -⟩ := Comment.ofDocument_eq_ok.1 h
  exact ⟨hid, hmessage, hname, hcommenter, hpost, htime⟩

/-! ## The writes -/

/-- A write of conforming contents. -/
def Request.Typed : Request → Prop
  | .setData n _ fields _ => (Document.ofFields fields).Conforms n.schema
  | .updateData n _ ups => Fits ups n.schema
  | _ => True

/-- The collection a call reads. -/
def Request.collection : Request → Option CollectionName
  | .getDocument n _ _ | .getDocuments n _ _ | .addSnapshotListener n _ _ => some n
  | _ => none

/-- The fault is no failed cast. -/
def Fault.NotCast (x : Fault) : Prop := ∀ key, x ≠ .cast key

theorem fits_mod (mod : Bool) : Fits [("mod", .value (.bool mod))] (CollectionName.schema .users) :=
  .singleton (show (FieldValue.value (.bool mod)).type = .bool from rfl) (by decide)

theorem fits_approved {n : CollectionName} {kind : ScreenKind} (hn : Moderated n kind) :
    Fits [("approved", .value (.bool true))] n.schema := by
  have htype : (FieldValue.value (.bool true)).type = .bool := rfl
  cases hn <;> exact .singleton htype (by decide)

/-- The edit of a profile writes strings. -/
theorem fits_profile {ups : List (String × FieldValue)}
    (h : ∀ u ∈ ups, u.2.type = .string ∧ (u.1 = "bio" ∨ u.1 = "name" ∨ u.1 = "avatarID")) :
    Fits ups (CollectionName.schema .users) := by
  have hkeys : ∀ f ∈ CollectionName.schema .users,
      f.1 = "bio" ∨ f.1 = "name" ∨ f.1 = "avatarID" → f.2 = .string := by decide
  intro u hu f hf hk
  obtain ⟨htype, hkey⟩ := h u hu
  rw [htype, hkeys f hf (hk ▸ hkey)]

section Handlers

variable {env : Env} {scr scr' : Screen} {es : List Effect} {r : Request}

theorem textChanges_strings (s : UserProfileViewController) :
    ∀ u ∈ s.textChanges,
      u.2.type = .string ∧ (u.1 = "bio" ∨ u.1 = "name" ∨ u.1 = "avatarID") := by
  unfold UserProfileViewController.textChanges
  split_ifs <;> simp [FieldValue.type, Value.type]

theorem editTapped_typed {s s' : UserProfileViewController} (h : s.editTapped env = .ok (s', es))
    (hr : .request r ∈ es) : r.Typed := by
  have htext := textChanges_strings s
  unfold UserProfileViewController.editTapped at h
  split_ifs at h
  · unfold UserProfileViewController.commit at h
    dsimp only at h
    split at h
    · cases h
    split_ifs at h <;> cases h
    · simp only [List.mem_cons, List.not_mem_nil, or_false, Effect.request.injEq] at hr
      rcases hr with rfl | rfl
      · trivial
      · refine fits_profile fun u hu => ?_
        rcases List.mem_append.1 hu with hu | hu
        · exact htext u hu
        · rw [List.mem_singleton.1 hu]
          exact ⟨rfl, .inr (.inr rfl)⟩
    · cases hr
    · cases hr
    · simp only [List.mem_singleton, Effect.request.injEq] at hr
      subst hr
      exact fits_profile htext
  · unfold UserProfileViewController.startEditing at h
    split at h <;> cases h
    cases hr

theorem act_typed {a : Action} (h : scr.act env a = some (.ok (scr', es))) (hr : .request r ∈ es) :
    r.Typed := by
  have hem := (Screen.act_spec h).2.2 _ hr
  cases hem with
  | table hl he =>
    generalize a.byUser = b at he
    cases he with
    | save u id v hu hid hv =>
      have htype : v.type = .array := by rcases hv with rfl | rfl <;> rfl
      exact .singleton htype (by decide)
    | _ => trivial
  | edit ups hups =>
    -- the call site says which fields change, not to what
    simp only [Screen.act, Option.some.injEq, lift_eq_ok] at h
    obtain ⟨⟨s', es'⟩, hx, hes⟩ := h
    cases hes
    exact editTapped_typed hx hr
  | approve row id hm hid => exact fits_approved hm
  | _ => trivial

theorem receive_typed {k : Callback} {rep : Reply}
    (h : scr.receive env k rep = some (.ok (scr', es))) (hr : .request r ∈ es) : r.Typed := by
  have hans := (Screen.receive_answers h).2 _ hr
  cases hans with
  | uploadSet => apply conforms_postDocument
  | commentSet => apply conforms_commentDocument
  | userSet nameText uid => apply conforms_userFields
  | _ => trivial

theorem load_typed {d : Destination} (h : Screen.load env d = .ok (scr, es))
    (hr : .request r ∈ es) :
    r.Typed := by
  obtain ⟨rs, hl, rfl⟩ := Screen.load_loaded h
  obtain ⟨r', hr', he⟩ := List.mem_map.1 hr
  cases he
  cases hl <;> simp only [List.mem_cons, List.not_mem_nil, or_false] at hr'
  case userProfile | otherProfile => rcases hr' with rfl | rfl <;> trivial
  all_goals
    subst hr'
    trivial

end Handlers

namespace System

/-- The handlers that load screens or react to actions write conforming contents and cast
nothing. -/
theorem rule_typed : Rule Request.Typed Fault.NotCast where
  load env d := by
    cases h : Screen.load env d with
    | error x => exact fun key hx => Screen.load_noCast d key (h.trans (congrArg _ hx))
    | ok x => exact fun r hr => load_typed h hr
  home r hr := by
    simp only [HomeViewController.viewDidLoad, HomeViewController.loadPosts, List.mem_singleton,
      Effect.request.injEq] at hr
    subst hr
    trivial
  act env scr a res h := by
    cases res with
    | error x => exact fun key hx => Screen.act_noCast h key (congrArg _ hx)
    | ok x => exact fun r hr => act_typed h hr

/-! ## The documents there are -/

variable {ι : Type} {s t : System ι} {sync : Prop}

/-- `d` is stored in collection `n`, or was when a call was answered with it. -/
def Held (s : System ι) (n : CollectionName) (d : Document) : Prop :=
  (∃ id, (s.store n).lookup id = some d) ∨
    ∃ f ∈ s.net, ∃ r, f.request.collection = some n ∧ f.reply = some r ∧ r.Holds d

/-- The writes in flight and the documents there are conform, and no cast has failed. -/
structure Typed (s : System ι) : Prop where
  lawful : s.Lawful Request.Typed Fault.NotCast
  held : ∀ n d, s.Held n d → d.Conforms n.schema

/-- A closure that decodes documents was passed to a call for documents of that collection. -/
theorem Inv.reads (h : s.Inv sync) {f : Flight ι} (hf : f ∈ s.net) {k : Callback} {nd : Node}
    {n : CollectionName} (hk : f.request.callback = some k) (hn : s.At f.client f.node nd)
    (hr : k.reads nd.screen.kind = some n) : f.request.collection = some n := by
  have hcalls := h.calls f hf
  generalize f.request = req at hcalls hk ⊢
  cases hcalls with
  | pending nd' m limit hn' hm =>
    cases hk
    cases Option.some.inj (hn.symm.trans hn')
    generalize nd.screen.kind = kind at hm hr
    cases hm <;> exact hr
  | _ => cases hk <;> exact hr

/-- What a call is answered with is stored in the collection it reads. -/
theorem Served.stored {req : Request} {a : Answer} {r : Reply} (h : s.Served req a t r)
    {d : Document} (hd : r.Holds d) {n : CollectionName} (hn : req.collection = some n) :
    ∃ id, (t.store n).lookup id = some d := by
  cases h with
  | document m id k =>
    cases hn
    rcases hd with hd | ⟨ds, hd, -⟩
    · exact ⟨id, by simpa using hd⟩
    · cases hd
  | documents m q k | snapshot m q k =>
    cases hn
    rcases hd with hd | ⟨ds, hd, hmem⟩
    · cases hd
    · cases hd
      obtain ⟨id, hl, -⟩ := Collection.of_mem_getDocuments hmem
      exact ⟨id, hl⟩
  | failed e hr => rcases hd with rfl | ⟨ds, rfl, -⟩ <;> simp at hr
  | _ => cases hn

variable [DecidableEq ι]

/-- A step leaves conforming documents. -/
theorem Typed.stored_step (h : s.Typed) (hfresh : s.Fresh) {e : Event ι} (hs : s.step e = some t)
    {n : CollectionName} {id : String} {d : Document} (hd : (t.store n).lookup id = some d) :
    d.Conforms n.schema := by
  have hch := step_changes hfresh hs n id
  have hold : ∀ d, (s.store n).lookup id = some d → d.Conforms n.schema :=
    fun d hl => h.held n d (.inl ⟨id, hl⟩)
  rw [hd] at hch
  generalize (s.store n).lookup id = o at hch hold
  cases hch with
  | unchanged => exact hold d rfl
  | setData f fields k hf hreq =>
    have hcall := h.lawful.calls f hf.mem
    rwa [hreq] at hcall
  | updateData f ups d₀ hf hreq =>
    have hcall := h.lawful.calls f hf.mem
    rw [hreq] at hcall
    exact (hold d₀ rfl).update hcall
  | setMod mod d₀ hn he =>
    subst hn
    exact (hold d₀ rfl).update (fits_mod mod)

/-- A document of the system after a step is stored there, or was held before. -/
theorem held_of_step {e : Event ι} (hs : s.step e = some t) {n : CollectionName} {d : Document}
    (hd : t.Held n d) : s.Held n d ∨ ∃ id, (t.store n).lookup id = some d := by
  rcases hd with hd | ⟨f, hf, r, hreq, hrep, hd⟩
  · exact .inr hd
  · rcases answered_cases hs hf hrep with ⟨f₀, hf₀, hg, hr⟩ | ⟨i, a, u, rfl, hserved, hsame, -⟩
    · exact .inl (.inr ⟨f₀, hf₀, r, hg.request ▸ hreq, hr, hd⟩)
    · have hstored := hserved.stored hd hreq
      rw [hsame.store] at hstored
      exact .inr hstored

/-- **Every step keeps the documents conforming**, and no cast fails in it. -/
theorem Typed.step (h : s.Typed) (hinv : s.Inv sync) (hfresh : s.Fresh) {e : Event ι}
    (hs : s.step e = some t) : t.Typed := by
  refine ⟨h.lawful.step rule_typed (fun f hf r k nd env res hr hk hn hres => ?_) hs,
    fun n d hd => ?_⟩
  · cases res with
    | error x =>
      refine fun key hx => Screen.receive_noCast (fun n d hread hd => ?_) hres key (congrArg _ hx)
      exact h.held n d (.inr ⟨f, hf, r, hinv.reads hf hk hn hread, hr, hd⟩)
    | ok x => exact fun r hr => receive_typed hres hr
  · rcases held_of_step hs hd with hd | ⟨id, hd⟩
    · exact h.held n d hd
    · exact h.stored_step hfresh hs hd

omit [DecidableEq ι] in
theorem initial_typed (h : s.Initial) : s.Typed := by
  refine ⟨h.lawful, fun n d hd => ?_⟩
  rcases hd with ⟨id, hl⟩ | ⟨f, hf, -⟩
  · cases n with
    | users =>
      obtain ⟨name, bio, mod, rfl⟩ := h.users id d hl
      exact conforms_userFields id name bio "" mod []
    | posts => simp [h.posts] at hl
    | comments => simp [h.comments] at hl
  · simp [h.net] at hf

/-- **Every document conforms to its schema** in every reachable state. -/
theorem reachable_typed (h : (machine ι).Reachable s) : s.Typed := by
  refine h.induct (fun _ => initial_typed) fun s e s' hvia hi _ hs => ?_
  exact hi.step (reachable_inv (hvia.mono fun _ _ _ => False.elim)) (reachable_fresh hvia) hs

/-! ## What the readers rebuild -/

/-- A post or comment that is held was recorded under its id. -/
theorem recorded_of_held (h : (machine ι).Reachable s) {n : CollectionName} {d : Document}
    (hn : n ≠ .users) (hd : s.Held n d) : ∃ id, s.Recorded n id d := by
  have hheld : ∀ d, s.Held n d → ∃ id, s.Recorded n id d := by
    refine h.induct (I := fun s => ∀ d, s.Held n d → ∃ id, s.Recorded n id d) (fun s h₀ d hd => ?_)
      fun s e s' hvia hi _ hs d hd => ?_
    · rcases hd with ⟨id, hl⟩ | ⟨f, hf, -⟩
      · cases n with
        | users => exact absurd rfl hn
        | posts => simp [h₀.posts] at hl
        | comments => simp [h₀.comments] at hl
      · simp [h₀.net] at hf
    · rcases held_of_step hs hd with hd | ⟨id, hl⟩
      · obtain ⟨id, hr⟩ := hi d hd
        exact ⟨id, (step_extends hs).recorded hr⟩
      · have hinv : s'.Inv False :=
          reachable_inv ((hvia.step trivial hs).mono fun _ _ _ => False.elim)
        exact ⟨id, (documentOK_iff_recorded hn).1 (hinv.stored n id d hl)⟩
  exact hheld d hd

omit [DecidableEq ι]

/-- Document `id` was written with these fields, for `u`. -/
def WrittenBy (s : System ι) (u : String) (n : CollectionName) (id : String)
    (fields : List (String × Value)) : Prop :=
  ∃ f ∈ s.net, (∃ k, f.request = .setData n id fields k) ∧ f.reply = some (.completion none) ∧
    fields.lookup n.authorField = some (.string u) ∧ s.PressedBy u f n id

theorem Inv.writtenBy (h : s.Inv sync) {n : CollectionName} (hn : n ≠ .users) {id : String}
    {fields : List (String × Value)} (hc : s.Created n id fields) :
    ∃ u, s.WrittenBy u n id fields := by
  obtain ⟨f, hf, k, hreq, hrep⟩ := hc
  obtain ⟨-, u, hu, hpress⟩ := h.writesOwned.create f hf n id fields k hn hreq
  exact ⟨u, f, hf, ⟨k, hreq⟩, hrep, hu, hpress⟩

/-- A post that is rebuilt from a document is what its author wrote. -/
theorem Inv.post_written (h : s.Inv sync) {id : String} {d : Document} {post : AEPost}
    (hr : s.Recorded .posts id d) (hd : AEPost.ofDocument d = .ok post) :
    ∃ u fields, AEPost.ofDocument (.ofFields fields) = .ok post ∧ post.MadeOf fields ∧
      s.WrittenBy u .posts post.id fields := by
  obtain ⟨fields, hc, hfields⟩ := hr.created
  obtain ⟨u, hw⟩ := h.writtenBy (by decide) hc
  have hread := (AEPost.ofDocument_congr hfields).symm.trans hd
  exact ⟨u, fields, hread, .of_ofDocument hread, h.id_eq hr hd ▸ hw⟩

/-- A comment that is rebuilt from a document is what its author wrote. -/
theorem Inv.comment_written (h : s.Inv sync) {id : String} {d : Document} {a : Bool}
    {comment : Comment} (hr : s.Recorded .comments id d)
    (hd : Comment.ofDocument a d = .ok comment) :
    ∃ u fields, Comment.ofDocument a (.ofFields fields) = .ok comment ∧ comment.MadeOf fields ∧
      s.WrittenBy u .comments comment.commentID fields := by
  obtain ⟨fields, hc, hfields⟩ := hr.created
  obtain ⟨u, hw⟩ := h.writtenBy (by decide) hc
  have hread := (Comment.ofDocument_congr hfields).symm.trans hd
  exact ⟨u, fields, hread, .of_ofDocument hread, h.commentID_eq hr hd ▸ hw⟩

variable [DecidableEq ι]

/-- **Every document can be decoded by every reader.** No process has ended by a failed cast. On
documents that are stored, or were when they were read, every closure of every screen goes through
without one, and so does the moderation cell. What is rebuilt from a post or a comment is, field by
field, what its author's write supplied, `approved` aside. -/
theorem stored_decodable (h : (machine ι).Reachable s) :
    (∀ c key, (s.clients c).fault ≠ some (.cast key)) ∧
      (∀ (scr : Screen) env k r x, (∀ n d, k.reads scr.kind = some n → r.Holds d → s.Held n d) →
        scr.receive env k r = some x → NoCast x) ∧
      (∀ (cell : ModerationPostTableViewCell) document, (∀ d ∈ document, s.Held .users d) →
        ∃ cell', cell.configureReply document = .ok cell') ∧
      (∀ d, s.Held .posts d → ∃ post u fields, AEPost.ofDocument d = .ok post ∧
        AEPost.ofDocument (.ofFields fields) = .ok post ∧ post.MadeOf fields ∧
          s.WrittenBy u .posts post.id fields) ∧
      ∀ d a, s.Held .comments d → ∃ comment u fields, Comment.ofDocument a d = .ok comment ∧
        Comment.ofDocument a (.ofFields fields) = .ok comment ∧ comment.MadeOf fields ∧
          s.WrittenBy u .comments comment.commentID fields := by
  have hinv : s.Inv False := reachable_inv (h.mono fun _ _ _ => False.elim)
  obtain ⟨hlawful, hheld⟩ := reachable_typed h
  refine ⟨fun c key hx => hlawful.faults c _ hx key rfl, fun scr env k r x hd hx => ?_,
    fun cell document hd => ?_, fun d hd => ?_, fun d a hd => ?_⟩
  · exact Screen.receive_noCast (fun n d hn hh => hheld n d (hd n d hn hh)) hx
  · exact ModerationPostTableViewCell.configureReply_ok fun d hmem => hheld .users d (hd d hmem)
  · obtain ⟨post, hpost⟩ := AEPost.exists_ofDocument (hheld .posts d hd)
    obtain ⟨id, hr⟩ := recorded_of_held h (by decide) hd
    obtain ⟨u, fields, hw⟩ := hinv.post_written hr hpost
    exact ⟨post, u, fields, hpost, hw⟩
  · obtain ⟨comment, hcomment⟩ := Comment.exists_ofDocument (hheld .comments d hd) a
    obtain ⟨id, hr⟩ := recorded_of_held h (by decide) hd
    obtain ⟨u, fields, hw⟩ := hinv.comment_written hr hcomment
    exact ⟨comment, u, fields, hcomment, hw⟩

/-- Ann's post, in the list of a moderator. -/
theorem stored_decodable_pending : ∃ (s : System ℕ) (d : Document),
    (s.store .posts).lookup "post" = some d ∧ ∃ post u fields, AEPost.ofDocument d = .ok post ∧
      AEPost.ofDocument (.ofFields fields) = .ok post ∧ post.MadeOf fields ∧
        s.WrittenBy u .posts post.id fields := by
  obtain ⟨s, hs, hp⟩ := (machine ℕ).exists_of_run (start annMoAndMax) pendingPostEvents
    (fun s => ((s.store .posts).lookup "post").isSome) (by decide +kernel)
  obtain ⟨d, hd⟩ := Option.isSome_iff_exists.1 hp
  obtain ⟨-, -, -, hposts, -⟩ := stored_decodable (hs.reachable (reachable_start annMoAndMax))
  exact ⟨s, d, hd, hposts d (.inl ⟨"post", hd⟩)⟩

end System

end ArtsExplorer
