import ArtsExplorer.App.Replies
import ArtsExplorer.System.Records

/-!
# The rules of the invariant

The parts of `Inv` are facts about the history, which stay true (`Extends.calls`,
`Extends.screenOK`, …). So a handler keeps the invariant if its new screen and its effects are based
on the history (`Inv.handle`). They are: an action uses what its screen knows
(`ScreenOK.follows`, `effectOK_of_emits`), a closure what is in its answer
(`screenOK_of_receive` with a lemma for each closure, `effectOK_of_answers`).
-/

namespace ArtsExplorer

open Foundations

namespace System

/-! ## Facts about the history stay true -/

section Extends

variable {ι : Type} {s t : System ι} {sync : Prop} {c : ι} {k : ℕ} (he : s.Extends t)

include he

theorem Extends.at {n : Node} (h : s.At c k n) : ∃ n', t.At c k n' ∧ n.Keeps n' := he.nodes c k n h

theorem Extends.approved {n : CollectionName} {id : String} (h : s.Approved n id) :
    t.Approved n id := by
  obtain ⟨f, hf, hreq, hrep⟩ := h
  obtain ⟨f', hf', hg⟩ := he.mem_net hf
  exact ⟨f', hf', hg.request.trans hreq, hg.reply _ hrep⟩

theorem Extends.denied {n : CollectionName} {id : String} (h : s.Denied n id) : t.Denied n id := by
  obtain ⟨f, hf, row, hreq, hrep⟩ := h
  obtain ⟨f', hf', hg⟩ := he.mem_net hf
  exact ⟨f', hf', row, hg.request.trans hreq, hg.reply _ hrep⟩

theorem Extends.known {n : CollectionName} {id : String} (h : s.Known n id) : t.Known n id :=
  h.imp fun _ => he.created

theorem Extends.recorded {n : CollectionName} {id : String} {d : Document}
    (h : s.Recorded n id d) : t.Recorded n id d := by
  obtain ⟨⟨fields, hc, hd⟩, ha⟩ := h
  exact ⟨⟨fields, he.created hc, hd⟩, ha.imp_left fun ⟨hd, ha⟩ => ⟨hd, he.approved ha⟩⟩

theorem Extends.fit {u id : String} (h : s.Fit u id) : t.Fit u id :=
  h.imp he.approved fun ⟨fields, hc, hu⟩ => ⟨fields, he.created hc, hu⟩

theorem Extends.savedOK {u : String} {d : Document} (h : s.SavedOK sync u d) : t.SavedOK sync u d :=
  fun id hid => ⟨he.known (h id hid).1, fun hs => he.fit ((h id hid).2 hs)⟩

theorem Extends.documentOK {n : CollectionName} {id : String} {d : Document}
    (h : s.DocumentOK sync n id d) : t.DocumentOK sync n id d := by
  cases n with
  | users => exact he.savedOK h
  | posts | comments => exact he.recorded h

theorem Extends.modMenu {h : ℕ} (hm : s.ModMenu c h) : t.ModMenu c h := by
  obtain ⟨nd, hnd, hk, f, hf, u, d, hc, hn, hu, hreq, hrep, hdel, hmod⟩ := hm
  obtain ⟨nd', hnd', hkeep⟩ := he.at hnd
  obtain ⟨f', hf', hg⟩ := he.mem_net hf
  exact ⟨nd', hnd', hkeep.kind.trans hk, f', hf', u, d, hg.client.trans hc, hg.node.trans hn,
    hg.user.trans hu, hg.request.trans hreq, hg.reply _ hrep, hg.delivered hdel, hmod⟩

theorem Extends.modScreen {m : ℕ} (hm : s.ModScreen c m) : t.ModScreen c m := by
  obtain ⟨nd, h, hnd, hk, ho, hmenu⟩ := hm
  obtain ⟨nd', hnd', hkeep⟩ := he.at hnd
  exact ⟨nd', h, hnd', hkeep.kind.trans hk, hkeep.opener.trans ho, he.modMenu hmenu⟩

theorem Extends.moderates {n : CollectionName} (hm : s.Moderates c k n) : t.Moderates c k n := by
  obtain ⟨nd, m, hnd, hk, ho, hscr⟩ := hm
  obtain ⟨nd', hnd', hkeep⟩ := he.at hnd
  exact ⟨nd', m, hnd', hkeep.kind ▸ hk, hkeep.opener.trans ho, he.modScreen hscr⟩

theorem Extends.readBy {d : Document} (h : s.ReadBy c k d) : t.ReadBy c k d := by
  obtain ⟨f, hf, hc, hn, hdel, hrep⟩ := h
  obtain ⟨f', hf', hg⟩ := he.mem_net hf
  refine ⟨f', hf', hg.client.trans hc, hg.node.trans hn, hg.delivered hdel, ?_⟩
  exact hrep.imp (hg.reply _) fun ⟨ds, hr, hd⟩ => ⟨ds, hg.reply _ hr, hd⟩

theorem Extends.readPending {n : CollectionName} {id : String} (h : s.ReadPending c k n id) :
    t.ReadPending c k n id := by
  obtain ⟨d, hr, hrec, hd⟩ := h
  exact ⟨d, he.readBy hr, he.recorded hrec, hd⟩

/-- A press recorded in the history. -/
theorem Extends.press {user : Option String} {req : Request}
    (h : ∃ f ∈ s.net, f.client = c ∧ f.node = k ∧ f.user = user ∧ f.request = req) :
    ∃ f ∈ t.net, f.client = c ∧ f.node = k ∧ f.user = user ∧ f.request = req := by
  obtain ⟨f, hf, hc, hn, hu, hreq⟩ := h
  obtain ⟨f', hf', hg⟩ := he.mem_net hf
  exact ⟨f', hf', hg.client.trans hc, hg.node.trans hn, hg.user.trans hu, hg.request.trans hreq⟩

theorem Extends.toldCreated {nameText uid : String} (h : s.ToldCreated c k nameText uid) :
    t.ToldCreated c k nameText uid := by
  obtain ⟨f, hf, hc, hn, ⟨email, password, hreq⟩, hrep, hdel⟩ := h
  obtain ⟨f', hf', hg⟩ := he.mem_net hf
  exact ⟨f', hf', hg.client.trans hc, hg.node.trans hn, ⟨email, password, hg.request.trans hreq⟩,
    hg.reply _ hrep, hg.delivered hdel⟩

theorem Extends.calls {user : Option String} {req : Request} (h : s.Calls sync c k user req) :
    t.Calls sync c k user req := by
  cases h with
  | profilePosts nd o hn ho =>
    obtain ⟨nd', hn', hkeep⟩ := he.at hn
    exact .profilePosts nd' o hn' (hkeep.user.trans ho)
  | savedUser nd u hn hu =>
    obtain ⟨nd', hn', hkeep⟩ := he.at hn
    exact .savedUser nd' u hn' fun hs => hkeep.user.trans (hu hs)
  | savedPost nd id hn hid hu =>
    obtain ⟨nd', hn', hkeep⟩ := he.at hn
    exact .savedPost nd' id hn' (he.known hid) fun hs u hu' => he.fit (hu hs u (hkeep.user ▸ hu'))
  | edit nd o ups hups hn ho hu =>
    obtain ⟨nd', hn', hkeep⟩ := he.at hn
    exact .edit nd' o ups hups hn' (hkeep.user.trans ho) hu
  | save u id v hu hid hf hv => exact .save u id v hu (he.known hid) (fun hs => he.fit (hf hs)) hv
  | uploadSet postUUID opID mediaID titleText descriptionText opName cats date hpress =>
    exact .uploadSet _ _ _ _ _ _ _ _ (he.press hpress)
  | commentSet commentID opID message opName postID date hpost hpress =>
    exact .commentSet _ _ _ _ _ _ (he.known hpost) (he.press hpress)
  | approve n id hm hid => exact .approve n id (he.moderates hm) (he.readPending hid)
  | deny n id row hm hid => exact .deny n id row (he.moderates hm) (he.readPending hid)
  | cellAvatar opID j => exact .cellAvatar opID j
  | cellSavedPosts u j => exact .cellSavedPosts u j
  | otherInfo u => exact .otherInfo u
  | profileInfo u => exact .profileInfo u
  | homePosts q hq => exact .homePosts q hq
  | otherPosts o => exact .otherPosts o
  | menu u hu => exact .menu u hu
  | comments postID => exact .comments postID
  | pending nd n limit hn hm =>
    obtain ⟨nd', hn', hkeep⟩ := he.at hn
    exact .pending nd' n limit hn' (hkeep.kind ▸ hm)
  | avatarPut path image => exact .avatarPut path image
  | uploadPut path image => exact .uploadPut path image
  | uploadUser _ _ _ _ _ hu => exact .uploadUser _ _ _ _ _ hu
  | commentUser _ _ _ hu => exact .commentUser _ _ _ hu
  | createUser nd email password nameText hn hk =>
    obtain ⟨nd', hn', hkeep⟩ := he.at hn
    exact .createUser nd' email password nameText hn' (hkeep.kind.trans hk)
  | userSet uid nameText hu htold => exact .userSet uid nameText hu (he.toldCreated htold)
  | signIn email password => exact .signIn email password

theorem Extends.answerOK {req : Request} {r : Reply} (h : s.AnswerOK sync c k req r) :
    t.AnswerOK sync c k req r := by
  unfold AnswerOK at h ⊢
  split
  · refine ⟨he.documentOK h.1, fun hp => ?_⟩
    obtain ⟨nd, hnd, hu⟩ := h.2 hp
    obtain ⟨nd', hnd', hkeep⟩ := he.at hnd
    exact ⟨nd', hnd', fun hs u hu' => hu hs u (hkeep.user ▸ hu')⟩
  · exact fun d hd => (h d hd).imp fun id h => ⟨he.documentOK h.1, h.2⟩
  · exact fun d hd => (h d hd).imp fun id h => ⟨he.documentOK h.1, h.2⟩
  · trivial

theorem Extends.listOK {user : Option String} {ok : Document → Prop} {l : PostListing}
    (h : s.ListOK sync c k user ok l) : t.ListOK sync c k user ok l := by
  refine ⟨fun post hp => ?_, fun id hid => ?_⟩
  · obtain ⟨d, hr, hd, hrec, hok⟩ := h.posts post hp
    exact ⟨d, he.readBy hr, hd, he.recorded hrec, hok⟩
  · obtain ⟨hk, hf⟩ := h.shows id hid
    exact ⟨he.known hk, fun hs u hu => he.fit (hf hs u hu)⟩

theorem Extends.commentOK {x : Comment} (h : s.CommentOK c k x) : t.CommentOK c k x := by
  obtain ⟨d, hr, hd, hrec, ha⟩ := h
  exact ⟨d, he.readBy hr, hd, he.recorded hrec, ha⟩

theorem Extends.screenOK {n : Node} (h : s.ScreenOK sync c k n) : t.ScreenOK sync c k n := by
  obtain ⟨container, opener, user, screen⟩ := n
  cases screen with
  | home v => exact ⟨he.listOK h.1, fun item hi hl => he.modMenu (h.2 item hi hl)⟩
  | otherProfile v | saved v => exact he.listOK h
  | userProfile v => exact ⟨h.1, he.listOK h.2⟩
  | comments v => exact ⟨he.known h.1, fun x hx => he.commentOK (h.2 x hx)⟩
  | moderation => exact h.imp fun _ h => ⟨h.1, he.modMenu h.2⟩
  | moderationPosts l | moderationComments l =>
    exact ⟨h.1.imp fun _ h => ⟨h.1, he.modScreen h.2⟩, fun x hx => he.readPending (h.2 x hx)⟩
  | _ => trivial

end Extends

/-! ## What the invariant says of a recorded document -/

section Recorded

variable {ι : Type} {s : System ι} {sync : Prop} (h : s.Inv sync)

include h

/-- The write that created a document was made at one of the three call sites. -/
theorem Inv.created_posts {id : String} {fields : List (String × Value)}
    (hc : s.Created .posts id fields) :
    ∃ opID opName chosenCategories mediaID titleText descriptionText date, fields =
      postDocument id opID opName chosenCategories mediaID titleText descriptionText date := by
  obtain ⟨f, hf, k, hreq, -⟩ := hc
  have hcalls := h.calls f hf
  rw [hreq] at hcalls
  cases hcalls
  exact ⟨_, _, _, _, _, _, _, rfl⟩

theorem Inv.created_comments {id : String} {fields : List (String × Value)}
    (hc : s.Created .comments id fields) :
    ∃ message opName opID postID date,
      fields = commentDocument id message opName opID postID date ∧ s.Known .posts postID := by
  obtain ⟨f, hf, k, hreq, -⟩ := hc
  have hcalls := h.calls f hf
  rw [hreq] at hcalls
  cases hcalls with
  | commentSet _ _ _ _ _ _ hpost => exact ⟨_, _, _, _, _, rfl, hpost⟩

/-- A post that is read from a recorded document has its id. -/
theorem Inv.id_eq {id : String} {d : Document} {post : AEPost} (hr : s.Recorded .posts id d)
    (hd : AEPost.ofDocument d = .ok post) : post.id = id := by
  obtain ⟨fields, hc, hfields⟩ := hr.created
  obtain ⟨_, _, _, _, _, _, _, rfl⟩ := h.created_posts hc
  rw [AEPost.ofDocument_eq_ok] at hd
  have hid := hfields "id" (by decide)
  rw [hd.1] at hid
  simpa [postDocument] using hid

/-- A comment that is read from a recorded document has its id. -/
theorem Inv.commentID_eq {id : String} {d : Document} {b : Bool} {comment : Comment}
    (hr : s.Recorded .comments id d) (hd : Comment.ofDocument b d = .ok comment) :
    comment.commentID = id := by
  obtain ⟨fields, hc, hfields⟩ := hr.created
  obtain ⟨_, _, _, _, _, rfl, -⟩ := h.created_comments hc
  rw [Comment.ofDocument_eq_ok] at hd
  have hid := hfields "commentID" (by decide)
  rw [hd.1] at hid
  simpa [commentDocument] using hid

omit h in
/-- A document that says that it fits is fit. -/
theorem Recorded.fit {u id : String} {d : Document} (hr : s.Recorded .posts id d)
    (hd : FitsDocument u d) : s.Fit u id := by
  rcases hd with hd | hd
  · rcases hr.approved with ⟨-, ha⟩ | hf
    · exact .inl ha
    · rw [hd] at hf
      cases hf
  · obtain ⟨fields, hc, hfields⟩ := hr.created
    exact .inr ⟨fields, hc, by rw [← hfields "opID" (by decide)]; exact hd⟩

/-- The stored document of a post that is fit says so. -/
theorem Inv.fitsDocument (hfresh : s.Fresh) {u id : String} {d : Document}
    (hd : (s.store .posts).lookup id = some d) (hu : s.Fit u id) : FitsDocument u d := by
  rcases hu with ha | ⟨fields, hc, hu⟩
  · exact .inl (h.approved _ _ _ hd ha)
  · have hr : s.Recorded .posts id d := h.stored _ _ _ hd
    obtain ⟨fields', hc', hfields⟩ := hr.created
    rw [hfresh.once _ _ _ _ hc hc'] at hu
    exact .inr ((hfields "opID" (by decide)).trans hu)

end Recorded

/-! ## New calls and screens -/

section Extend

variable {ι : Type} {s t : System ι} {sync : Prop} {c : ι} {k : ℕ}

/-- **The rule for a change of the devices**: only the calls and the screens that are new have to be
accounted for. -/
theorem Inv.extend (h : s.Inv sync) (he : s.Extends t) (hstore : t.store = s.store)
    (hnet : ∀ f ∈ t.net, (f.reply = none ∧ t.Calls sync f.client f.node f.user f.request) ∨
      ∃ f₀ ∈ s.net, f₀.Grows f ∧ f.reply = f₀.reply)
    (hscr : ∀ (c : ι) (k : ℕ) (n : Node), t.At c k n → s.At c k n ∨ t.ScreenOK sync c k n) :
    t.Inv sync := by
  have hback : ∀ {req : Request} {r : Reply}, (∃ f ∈ t.net, f.request = req ∧ f.reply = some r) →
      ∃ f ∈ s.net, f.request = req ∧ f.reply = some r := by
    rintro req r ⟨f, hf, hreq, hrep⟩
    rcases hnet f hf with ⟨hnone, -⟩ | ⟨f₀, hf₀, hg, hr⟩
    · rw [hnone] at hrep
      cases hrep
    · exact ⟨f₀, hf₀, hg.request.symm.trans hreq, hr ▸ hrep⟩
  refine ⟨fun f hf => ?_, fun f hf r hr => ?_, fun c k n hn => ?_, fun n id d hd => ?_,
    fun n id d hd ha => ?_, fun n id hk => ?_⟩
  · rcases hnet f hf with ⟨-, hcalls⟩ | ⟨f₀, hf₀, hg, -⟩
    · exact hcalls
    · rw [hg.client, hg.node, hg.user, hg.request]
      exact he.calls (h.calls f₀ hf₀)
  · rcases hnet f hf with ⟨hnone, -⟩ | ⟨f₀, hf₀, hg, hrep⟩
    · rw [hnone] at hr
      cases hr
    · rw [hg.client, hg.node, hg.request]
      exact he.answerOK (h.answers f₀ hf₀ r (hrep ▸ hr))
  · rcases hscr c k n hn with hn | hok
    · exact he.screenOK (h.screens c k n hn)
    · exact hok
  · exact he.documentOK (h.stored n id d (hstore ▸ hd))
  · exact h.approved n id d (hstore ▸ hd) (hback ha)
  · obtain ⟨fields, f, hf, k, hreq, hrep⟩ := hk
    obtain ⟨f₀, hf₀, hreq₀, hrep₀⟩ := hback ⟨f, hf, hreq, hrep⟩
    rw [hstore]
    exact (h.kept n id ⟨fields, f₀, hf₀, k, hreq₀, hrep₀⟩).imp_right he.denied

/-- What an effect of screen `k` needs. -/
def EffectOK (s : System ι) (sync : Prop) (c : ι) (k : ℕ) (user : Option String) : Effect → Prop
  | .request r => s.Calls sync c k user r
  | .segue (.comments postID _) => s.Known .posts postID
  | .segue .moderation => s.ModMenu c k
  | .segue .moderationPosts | .segue .moderationComments => s.ModScreen c k
  | _ => True

theorem Extends.effectOK (he : s.Extends t) {user : Option String} {e : Effect}
    (h : s.EffectOK sync c k user e) : t.EffectOK sync c k user e := by
  unfold EffectOK at h ⊢
  split
  · exact he.calls h
  · exact he.known h
  · exact he.modMenu h
  · exact he.modScreen h
  · exact he.modScreen h
  · trivial

/-- Calls of one screen. -/
theorem Inv.sendAll (h : s.Inv sync) {es : List Effect}
    (hes : ∀ r ∈ requests es, s.Calls sync c k (s.clients c).currentUser r) :
    (s.sendAll c k es).Inv sync := by
  have he : s.Extends (s.sendAll c k es) := extends_sendAll es
  refine h.extend he ?_ (fun f hf => ?_) fun c' k' n hn => .inl ?_
  · rw [sendAll_eq]
  · rw [sendAll_eq, List.mem_append, List.mem_map] at hf
    rcases hf with hf | ⟨r, hr, rfl⟩
    · exact .inr ⟨f, hf, .refl f, rfl⟩
    · exact .inl ⟨rfl, he.calls (hes r hr)⟩
  · rwa [At, clients_sendAll] at hn

/-- The screens that a segue creates. -/
theorem Loaded.screenOK {env : Env} {d : Destination} {scr : Screen} {rs : List Request}
    (hl : Screen.Loaded env d scr rs) {opener : ℕ} {container : ℕ}
    (hd : s.EffectOK sync c opener env.currentUser (.segue d)) :
    s.ScreenOK sync c k ⟨container, some opener, env.currentUser, scr⟩ := by
  have hempty : ∀ {user : Option String} {ok : Document → Prop} {l : PostListing},
      l.postsToShow.items = [] → l.cells = [] → s.ListOK sync c k user ok l := by
    intro user ok l hp hc
    refine ⟨by simp [hp], ?_⟩
    rintro id ⟨cell, hcell, -⟩
    simp [hc] at hcell
  cases hl with
  | userProfile u hu => exact ⟨hu, hempty rfl rfl⟩
  | otherProfile otherUserID otherUserName => exact hempty rfl rfl
  | saved u hu => exact hempty rfl rfl
  | comments postID opName => exact ⟨hd, by simp [CommentsViewController.viewDidLoad]⟩
  | moderation => exact ⟨opener, rfl, hd⟩
  | moderationPosts | moderationComments => exact ⟨⟨opener, rfl, hd⟩, by simp⟩
  | _ => trivial

/-- The calls of a screen's `viewDidLoad`. -/
theorem Loaded.calls {env : Env} {d : Destination} {rs : List Request} {nd : Node}
    (hl : Screen.Loaded env d nd.screen rs) (hn : s.At c k nd) (hu : nd.user = env.currentUser) :
    ∀ r ∈ rs, s.Calls sync c k env.currentUser r := by
  obtain ⟨container, opener, user, scr⟩ := nd
  cases hl with
  | userProfile u hu' =>
    simp only [List.mem_cons, List.not_mem_nil, or_false, forall_eq_or_imp, forall_eq]
    exact ⟨.profilePosts _ u hn (hu.trans hu'), .profileInfo u⟩
  | otherProfile otherUserID otherUserName =>
    simp only [List.mem_cons, List.not_mem_nil, or_false, forall_eq_or_imp, forall_eq]
    exact ⟨.otherInfo _, .otherPosts _⟩
  | saved u hu' =>
    simp only [List.mem_singleton, forall_eq]
    exact .savedUser _ u hn fun _ => hu.trans hu'
  | comments postID opName =>
    simp only [List.mem_singleton, forall_eq]
    exact .comments postID
  | moderationPosts =>
    simp only [List.mem_singleton, forall_eq]
    exact .pending _ _ _ hn .posts
  | moderationComments =>
    simp only [List.mem_singleton, forall_eq]
    exact .pending _ _ _ hn .comments
  | _ => simp

variable [DecidableEq ι]

/-- **The rule for a change of one device.** -/
theorem Inv.modify (h : s.Inv sync) {f : Client → Client} (he : s.Extends (s.modify c f))
    (hf : ∀ (j : ℕ) (m : Node), (f (s.clients c)).nodes[j]? = some m →
      s.At c j m ∨ s.ScreenOK sync c j m) : (s.modify c f).Inv sync := by
  refine h.extend he rfl (fun f hf => .inr ⟨f, hf, .refl f, rfl⟩) fun c' k n hn => ?_
  rw [At, clients_modify] at hn
  split_ifs at hn with hc
  · subst hc
    exact (hf k n hn).imp_right he.screenOK
  · exact .inl hn

/-- A change of a device that leaves its screens alone. -/
theorem Inv.modify_of_nodes (h : s.Inv sync) {f : Client → Client}
    (hf : (f (s.clients c)).nodes = (s.clients c).nodes) : (s.modify c f).Inv sync :=
  h.modify (extends_modify_of_nodes hf) fun j m hm => .inl (by rw [At, ← hf]; exact hm)

theorem Inv.openScreen (h : s.Inv sync) {env : Env} {d : Destination}
    (hd : s.EffectOK sync c k (s.clients c).currentUser (.segue d)) :
    (s.openScreen c k env d).Inv sync := by
  unfold System.openScreen
  split
  · exact h.modify_of_nodes rfl
  · next screen effects hload =>
    obtain ⟨rs, hl, rfl⟩ := Screen.load_loaded hload
    have hpush : (s.modify c fun cl => cl.openScreen k screen).Inv sync := by
      refine h.modify ?_ fun j m hm => ?_
      · exact extends_modify fun k' n hn => ⟨n, push_keeps _ (some k) screen k' n hn, .refl n⟩
      · rcases Client.getElem?_push.1 hm with hm | ⟨-, rfl⟩
        · exact .inl hm
        · exact .inr (Loaded.screenOK hl hd)
    refine hpush.sendAll fun r hr => ?_
    have hn : (s.modify c fun cl => cl.openScreen k screen).At c (s.clients c).nodes.length
        ⟨(s.clients c).front, some k, (s.clients c).currentUser, screen⟩ := by
      rw [At, clients_modify, if_pos rfl]
      exact Client.getElem?_push.2 (.inr ⟨rfl, rfl⟩)
    have hcalls := @Loaded.calls _ _ sync _ _ _ _ _ _ hl hn rfl r (by simpa [mem_requests] using hr)
    rw [clients_modify, if_pos rfl]
    exact hcalls

theorem Inv.enterHome (h : s.Inv sync) (entrance : Entrance) :
    (s.enterHome c entrance).Inv sync := by
  have hentry : ({ s with entries := s.entries ++
      [HomeEntry.mk c entrance (s.clients c).currentUser] } : System ι).Inv sync :=
    h.extend (extends_entries _) rfl (fun f hf => .inr ⟨f, hf, .refl f, rfl⟩) fun _ _ _ hn =>
      .inl hn
  have hshow := hentry.modify (c := c) extends_showHome fun j m hm => by
    rcases Client.getElem?_push.1 hm with hm | ⟨-, rfl⟩
    · rcases Client.getElem?_push.1 hm with hm | ⟨-, rfl⟩
      · exact .inl hm
      · exact .inr trivial
    · refine .inr ⟨⟨by simp [HomeViewController.viewDidLoad], ?_⟩,
        by simp [HomeViewController.viewDidLoad]⟩
      rintro id ⟨cell, hcell, -⟩
      simp [HomeViewController.viewDidLoad] at hcell
  refine hshow.sendAll fun r hr => ?_
  rw [List.mem_singleton.1 hr]
  exact .homePosts _ List.mem_cons_self

theorem Inv.enterInitial (h : s.Inv sync) : (s.enterInitial c).Inv sync := by
  have hshow : (s.modify c Client.showInitial).Inv sync := by
    refine h.modify extends_showInitial fun j m hm => ?_
    rcases Client.getElem?_push.1 hm with hm | ⟨-, rfl⟩
    · exact .inl hm
    · exact .inr trivial
  unfold System.enterInitial
  split_ifs
  · exact hshow
  · exact hshow.enterHome _

theorem Inv.performOne (h : s.Inv sync) {env : Env} {e : Effect}
    (he : s.EffectOK sync c k (s.clients c).currentUser e) : (s.performOne c k env e).Inv sync := by
  cases e <;> simp only [System.performOne]
  case request r =>
    refine @Inv.sendAll ι s sync c k h [.request r] fun r' hr' => ?_
    rw [List.mem_singleton.1 hr']
    exact he
  case segue d => exact h.openScreen he
  case goToHome =>
    split_ifs
    · exact h.enterHome _
    · exact h
  case presentInitial => exact h.enterInitial
  all_goals exact h.modify_of_nodes rfl

/-- The invariant after a tidy list of effects. -/
theorem Inv.perform (h : s.Inv sync) {env : Env} {es : List Effect} (ht : Tidy es)
    (hes : ∀ e ∈ es, s.EffectOK sync c k (s.clients c).currentUser e) :
    (perform env s c k es).Inv sync := by
  have hquiet : ∀ {qs : List Effect}, (∀ e ∈ qs, e.isQuiet = true) →
      (∀ e ∈ qs, s.EffectOK sync c k (s.clients c).currentUser e) →
      (System.perform env s c k qs).Inv sync := by
    intro qs hqs hok
    have hq := perform_quiet (s := s) (c := c) (k := k) env hqs
    have he : s.Extends (System.perform env s c k qs) := extends_perform env qs
    refine h.extend he hq.store (fun f hf => ?_) fun c' k' n hn => .inl ?_
    · rw [hq.net, List.mem_append, List.mem_map] at hf
      rcases hf with hf | ⟨r, hr, rfl⟩
      · exact .inr ⟨f, hf, .refl f, rfl⟩
      · exact .inl ⟨rfl, he.calls (hok _ (mem_requests.1 hr))⟩
    · by_cases hc : c' = c
      · subst hc
        rw [At, hq.client] at hn
        exact hn
      · rwa [At, hq.others c' hc] at hn
  cases ht with
  | quiet hqs => exact hquiet hqs hes
  | @last qs e hqs he =>
    rw [perform_append]
    have hq := perform_quiet (s := s) (c := c) (k := k) env hqs
    refine (hquiet hqs fun e he => hes e (List.mem_append_left _ he)).performOne ?_
    rw [hq.client]
    exact (extends_perform env qs).effectOK (hes e (List.mem_append_right _ List.mem_cons_self))
  | logOut =>
    have hout : (s.performOne c k env .signOut).Inv sync := h.performOne trivial
    exact hout.enterInitial

/-- **The rule for a handler**: its screen's data and its effects have to be accounted for. -/
theorem Inv.handle (h : s.Inv sync) {env : Env} {n : Node} {r : Except Fault (After Screen)}
    (hn : s.At c k n)
    (hr : ∀ screen es, r = .ok (screen, es) → screen.kind = n.screen.kind ∧
      s.ScreenOK sync c k { n with screen := screen } ∧ Tidy es ∧
      ∀ e ∈ es, s.EffectOK sync c k (s.clients c).currentUser e) : (s.handle c k env r).Inv
        sync := by
  cases r with
  | error f =>
    rw [System.handle, crash]
    exact h.modify_of_nodes rfl
  | ok x =>
    obtain ⟨screen, es⟩ := x
    obtain ⟨hk, hscr, ht, hes⟩ := hr screen es rfl
    have he : s.Extends (s.modify c fun cl => cl.setScreen k screen) := extends_setScreen hn hk
    have hset : (s.modify c fun cl => cl.setScreen k screen).Inv sync := by
      refine h.modify he fun j m hm => ?_
      obtain ⟨m', hm', rfl⟩ := Client.getElem?_setScreen hm
      by_cases hkj : k = j
      · subst hkj
        have hnn : m' = n := Option.some.inj (hm'.symm.trans hn)
        subst hnn
        rw [if_pos rfl]
        exact .inr hscr
      · rw [if_neg hkj]
        exact .inl hm'
    refine hset.perform ht fun e hem => ?_
    rw [clients_modify, if_pos rfl]
    exact he.effectOK (hes e hem)

end Extend

/-! ## Actions -/

section Actions

variable {ι : Type} {s : System ι} {sync : Prop} {c : ι} {k : ℕ}

/-- What the loader of a list of posts asked of the documents makes them fit. -/
theorem ScreenOK.listing {n : Node} {l : PostListing} (h : s.ScreenOK sync c k n)
    (hl : n.screen.listing = some l) :
    ∃ ok : Document → Prop, s.ListOK sync c k n.user ok l ∧
      ∀ d, ok d → sync → ∀ u, n.user = some u → FitsDocument u d := by
  obtain ⟨container, opener, user, screen⟩ := n
  cases screen <;> simp only [Screen.listing, reduceCtorEq, Option.some.injEq] at hl <;> subst hl
  case home v => exact ⟨_, h.1, fun d hd _ _ _ => .inl hd⟩
  case otherProfile v => exact ⟨_, h, fun d hd _ _ _ => .inl hd⟩
  case saved v => exact ⟨_, h, fun d hd => hd⟩
  case userProfile v =>
    refine ⟨_, h.2, fun d hd _ u hu => .inr ?_⟩
    have huser : user = some v.listing.opID := h.1
    rw [huser] at hu
    cases hu
    exact hd

theorem ListOK.known {user : Option String} {ok : Document → Prop} {l : PostListing}
    (h : s.ListOK sync c k user ok l) {post : AEPost} (hp : post ∈ l.postsToShow.items) :
    s.Known .posts post.id := by
  obtain ⟨d, -, -, hr, -⟩ := h.posts post hp
  exact hr.created.imp fun _ h => h.1

/-- A list that follows keeps what holds of it. -/
theorem ListOK.follows {user : Option String} {ok : Document → Prop} {l l' : PostListing}
    (h : s.ListOK sync c k user ok l) (hf : l.Follows l')
    (hok : ∀ d, ok d → sync → ∀ u, user = some u → FitsDocument u d) :
    s.ListOK sync c k user ok l' := by
  refine ⟨fun post hp => h.posts post (hf.postsToShow ▸ hp), fun id hid => ?_⟩
  rcases hf.shows id hid with hid | ⟨post, hp, rfl⟩
  · exact h.shows id hid
  · obtain ⟨d, -, -, hr, hd⟩ := h.posts post hp
    exact ⟨h.known hp, fun hs u hu => hr.fit (hok d hd hs u hu)⟩

/-- The screen after an action. -/
theorem ScreenOK.follows {n : Node} {screen : Screen} (h : s.ScreenOK sync c k n)
    (hf : n.screen.Follows screen) : s.ScreenOK sync c k { n with screen := screen } := by
  obtain ⟨container, opener, user, scr⟩ := n
  cases hf with
  | home hl hm =>
    refine ⟨h.1.follows hl fun d hd _ _ _ => .inl hd, fun item hi => h.2 item ?_⟩
    rw [← hm]
    exact hi
  | otherProfile hl => exact ListOK.follows h hl fun d hd _ _ _ => .inl hd
  | saved hl => exact ListOK.follows h hl fun d hd => hd
  | @userProfile v v' hl =>
    have huser : user = some v.listing.opID := h.1
    have hop : v'.listing.opID = v.listing.opID := by
      rcases hl.opID with hop | ⟨post, hp, hop⟩
      · exact hop
      · -- every listed post is the user's own
        obtain ⟨d, -, hd, -, hown⟩ := h.2.posts post hp
        rw [(AEPost.ofDocument_eq_ok.1 hd).2.1] at hown
        rw [← hop]
        simpa using hown
    refine ⟨huser.trans (by rw [hop]), ?_⟩
    change s.ListOK sync c k user (fun d => d "opID" = some (.string v'.listing.opID)) v'.listing
    rw [hop]
    refine h.2.follows hl fun d hd _ u hu => .inr ?_
    rw [huser] at hu
    cases hu
    exact hd
  | comments hp hc =>
    refine ⟨?_, fun x hx => h.2 x (hc ▸ hx)⟩
    rw [hp]
    exact h.1
  | moderationPosts hi | moderationComments hi => exact ⟨h.1, fun x hx => h.2 x (hi x hx)⟩
  | moderation => exact h
  | _ => trivial

/-- A moderation screen only lists what it has read as pending. -/
theorem moderates_of_lists {nd : Node} {n : CollectionName} {id : String} (hn : s.At c k nd)
    (hok : s.ScreenOK sync c k nd) (hm : Moderated n nd.screen.kind) (hid : nd.screen.Lists id) :
    s.Moderates c k n ∧ s.ReadPending c k n id := by
  obtain ⟨container, opener, user, screen⟩ := nd
  cases screen <;> simp only [Screen.Lists] at hid
  case moderationPosts l =>
    cases hm
    obtain ⟨⟨m, ho, hscr⟩, hitems⟩ := hok
    obtain ⟨x, hx, rfl⟩ := hid
    exact ⟨⟨_, m, hn, .posts, ho, hscr⟩, hitems x hx⟩
  case moderationComments l =>
    cases hm
    obtain ⟨⟨m, ho, hscr⟩, hitems⟩ := hok
    obtain ⟨x, hx, rfl⟩ := hid
    exact ⟨⟨_, m, hn, .comments, ho, hscr⟩, hitems x hx⟩

/-- **The effects of an action** are based on what its screen knows. -/
theorem effectOK_of_emits {env : Env} {n : Node} {a : Action} {e : Effect}
    (hn : s.At c k n) (hok : s.ScreenOK sync c k n)
    (henv : env.currentUser = (s.clients c).currentUser)
    (hu : a.byUser = true → n.screen.kind.isEntry = false → sync →
      n.user = (s.clients c).currentUser) (he : n.screen.Emits env a e) :
    s.EffectOK sync c k (s.clients c).currentUser e := by
  obtain ⟨container, opener, user, screen⟩ := n
  cases he with
  | @table scr a l e hl he =>
    obtain ⟨ok, hlist, hfits⟩ := hok.listing hl
    have hinner : screen.kind.isEntry = false := by cases screen <;> first | rfl | cases hl
    generalize hb : a.byUser = b at he
    cases he with
    | avatar opID j => exact .cellAvatar opID j
    | reuse u j hu' => exact .cellSavedPosts u j
    | save u id v hu' hid hv =>
      obtain ⟨hk, hf⟩ := hlist.shows id hid
      exact .save u id v (henv.symm.trans hu') hk
        (fun hs => hf hs u ((hu hb hinner hs).trans (henv.symm.trans hu'))) hv
    | comments post hp => exact hlist.known hp
    | otherProfile post hp => trivial
  | createUser email password nameText => exact .createUser _ email password nameText hn rfl
  | signIn email password => exact .signIn email password
  | homePosts q hq => exact .homePosts q hq
  | menu u hu' => exact .menu u (henv.symm.trans hu')
  | moderation row item hi hl => exact hok.2 item hi hl
  | otherPosts o => exact .otherPosts o
  | savedUser u hu' =>
    exact .savedUser _ u hn fun hs => (hu rfl rfl hs).trans (henv.symm.trans hu')
  | profilePosts => exact .profilePosts _ _ hn hok.1
  | avatarPut path image => exact .avatarPut path image
  | edit ups hups => exact .edit _ _ ups hups hn hok.1 fun hs => (hu rfl rfl hs).symm.trans hok.1
  | uploadPut path image => exact .uploadPut path image
  | uploadUser u mediaID titleText descriptionText hu' =>
    exact .uploadUser _ _ _ _ _ (henv.symm.trans hu')
  | commentUser u message hu' => exact .commentUser _ _ _ (henv.symm.trans hu')
  | moderationPostsSegue | moderationCommentsSegue =>
    obtain ⟨h, ho, hm⟩ := hok
    exact ⟨_, h, hn, rfl, ho, hm⟩
  | @pending scr a n limit hm => exact .pending _ n limit hn hm
  | @approve scr n row id hm hid =>
    obtain ⟨hmod, hread⟩ := moderates_of_lists hn hok hm hid
    exact .approve n id hmod hread
  | @deny scr n row id hm hid =>
    obtain ⟨hmod, hread⟩ := moderates_of_lists hn hok hm hid
    exact .deny n id row hmod hread
  | _ => trivial

end Actions

/-! ## Answers -/

section Answers

variable {ι : Type} {s : System ι} {sync : Prop} {c : ι} {k : ℕ} {user : Option String}
  {ok : Document → Prop} {l l' : PostListing}

theorem listOK_removeAll : s.ListOK sync c k user ok l.removeAll := by
  refine ⟨by simp [PostListing.removeAll], ?_⟩
  rintro id ⟨cell, hcell, hrow, -⟩
  obtain ⟨cell', -, rfl⟩ := List.mem_map.1 hcell
  exact absurd rfl hrow

/-- A list after the loop of its loader. -/
theorem ListOK.showAll (h : s.ListOK sync c k user ok l) (hinv : s.Inv sync) {ds : List Document}
    (hl : l.showAll ds = .ok l')
    (hds : ∀ d ∈ ds, s.ReadBy c k d ∧ (∃ id, s.Recorded .posts id d) ∧ ok d) :
    l'.opID = l.opID ∧ s.ListOK sync c k user ok l' := by
  simp only [PostListing.showAll, bind_eq_ok, trapping_eq_ok, pure_eq_ok] at hl
  obtain ⟨posts, hposts, rows, hrows, rfl⟩ := hl
  refine ⟨rfl, fun post hp => ?_, fun id hid => h.shows id hid⟩
  have hitems : rows.items = l.postsToShow.items ++ posts := RowList.items_appendAll hrows
  rw [show ({ l with postsToShow := rows } : PostListing).postsToShow.items = rows.items from rfl,
    hitems, List.mem_append] at hp
  rcases hp with hp | hp
  · exact h.posts post hp
  · obtain ⟨d, hd, hpost⟩ := mem_decodeAll hposts hp
    obtain ⟨hread, ⟨id, hrec⟩, hok⟩ := hds d hd
    have hid := hinv.id_eq hrec hpost
    exact ⟨d, hread, hpost, hid ▸ hrec, hok⟩

/-- Answer `r` of call `f` has been handed over to closure `kb` of the screen that made the call. -/
structure HandsOver (s : System ι) (f : Flight ι) (r : Reply) (kb : Callback) (n : Node) :
    Prop where
  call : f ∈ s.net
  delivered : f.delivered = true
  reply : f.reply = some r
  callback : f.request.callback = some kb
  node : s.At f.client f.node n

variable {f : Flight ι} {r : Reply} {kb : Callback} {n : Node} {env : Env} {screen : Screen}
  {es : List Effect} {container : ℕ} {opener : Option ℕ} {ds : List Document} {d : Document}

theorem HandsOver.readBy_document (ho : s.HandsOver f (.document (some d)) kb n) :
    s.ReadBy f.client f.node d :=
  ⟨f, ho.call, rfl, rfl, ho.delivered, .inl ho.reply⟩

theorem HandsOver.readBy_documents (ho : s.HandsOver f (.documents (.ok ds)) kb n) (hd : d ∈ ds) :
    s.ReadBy f.client f.node d :=
  ⟨f, ho.call, rfl, rfl, ho.delivered, .inr ⟨ds, ho.reply, hd⟩⟩

/-! ### The closures -/

theorem screenOK_homePosts {v : HomeViewController} (h : s.Inv sync)
    (ho : s.HandsOver f (.documents (.ok ds)) .homePosts ⟨container, opener, user, .home v⟩)
    (hl : v.listing.removeAll.showAll ds = .ok l) :
    s.ScreenOK sync f.client f.node ⟨container, opener, user, .home { v with listing := l }⟩ := by
  have hcalls := h.calls f ho.call
  have hans := h.answers f ho.call _ ho.reply
  have hk := ho.callback
  generalize f.request = req at hcalls hans hk
  cases hcalls <;> cases hk
  case homePosts q hq =>
  refine ⟨(listOK_removeAll.showAll h hl fun d hd => ?_).2, (h.screens _ _ _ ho.node).2⟩
  obtain ⟨id, hrec, hflt⟩ := hans d hd
  exact ⟨ho.readBy_documents hd, ⟨id, hrec⟩, hflt _ hq⟩

theorem screenOK_menu {v : HomeViewController} {m : MenuListController} (h : s.Inv sync)
    (ho : s.HandsOver f (.document (some d)) .menu ⟨container, opener, user, .home v⟩)
    (hx : v.leftMenu.viewDidLoadReply (some d) = .ok (m, es)) :
    s.ScreenOK sync f.client f.node ⟨container, opener, user, .home { v with leftMenu := m }⟩ := by
  have hcalls := h.calls f ho.call
  have hk := ho.callback
  generalize hreq : f.request = req at hcalls hk
  cases hcalls <;> cases hk
  case menu u hu =>
  simp only [MenuListController.viewDidLoadReply, bind_eq_ok, getBool_eq_ok, pure_eq_ok,
    Prod.mk.injEq] at hx
  obtain ⟨userIsMod, hmod, rfl, -⟩ := hx
  refine ⟨(h.screens _ _ _ ho.node).1, fun item hi hl => ?_⟩
  cases userIsMod with
  | true =>
    exact ⟨_, ho.node, rfl, f, ho.call, u, d, rfl, rfl, hu, hreq, ho.reply, ho.delivered, hmod⟩
  | false =>
    -- the menu of the other users has no such item
    have hnone : ∀ item ∈ ["Home", "Art", "Drama", "Film", "Music", "Log out"],
        lowercased item ≠ "moderation" := by decide
    exact absurd hl (hnone item hi)

theorem screenOK_otherPosts {v : OtherProfileViewController} (h : s.Inv sync)
    (ho : s.HandsOver f (.documents (.ok ds)) .otherPosts
      ⟨container, opener, user, .otherProfile v⟩) (hl : v.listing.showAll ds = .ok l) :
    s.ScreenOK sync f.client f.node
      ⟨container, opener, user, .otherProfile { v with listing := l }⟩ := by
  have hcalls := h.calls f ho.call
  have hans := h.answers f ho.call _ ho.reply
  have hok := h.screens _ _ _ ho.node
  have hk := ho.callback
  generalize f.request = req at hcalls hans hk
  cases hcalls <;> cases hk
  case otherPosts o =>
  refine (ListOK.showAll hok h hl fun d hd => ?_).2
  obtain ⟨id, hrec, hflt⟩ := hans d hd
  exact ⟨ho.readBy_documents hd, ⟨id, hrec⟩,
    hflt _ (List.mem_cons_of_mem _ List.mem_cons_self)⟩

theorem screenOK_savedPost {v : SavedViewController} (h : s.Inv sync)
    (ho : s.HandsOver f (.document (some d)) .savedPost ⟨container, opener, user, .saved v⟩)
    (hl : v.listing.showAll [d] = .ok l) :
    s.ScreenOK sync f.client f.node ⟨container, opener, user, .saved { v with listing := l }⟩ := by
  have hcalls := h.calls f ho.call
  have hans := h.answers f ho.call _ ho.reply
  have hok := h.screens _ _ _ ho.node
  have hk := ho.callback
  generalize f.request = req at hcalls hans hk
  cases hcalls <;> cases hk
  case savedPost nd id hnd hid hu =>
  refine (ListOK.showAll hok h hl fun d' hd => ?_).2
  rw [List.mem_singleton.1 hd]
  obtain ⟨m, hm, hfits⟩ := hans.2 rfl
  cases hm.symm.trans ho.node
  exact ⟨ho.readBy_document, ⟨id, hans.1⟩, hfits⟩

theorem screenOK_profilePosts {v : UserProfileViewController} (h : s.Inv sync)
    (ho : s.HandsOver f (.documents (.ok ds)) .profilePosts
      ⟨container, opener, user, .userProfile v⟩) (hl : v.listing.showAll ds = .ok l) :
    s.ScreenOK sync f.client f.node
      ⟨container, opener, user, .userProfile { v with listing := l }⟩ := by
  have hcalls := h.calls f ho.call
  have hans := h.answers f ho.call _ ho.reply
  have hok := h.screens _ _ _ ho.node
  have hk := ho.callback
  generalize f.request = req at hcalls hans hk
  cases hcalls <;> cases hk
  case profilePosts nd o hnd huser =>
  cases hnd.symm.trans ho.node
  have hop : user = some _ := hok.1
  cases huser.symm.trans hop
  obtain ⟨hl', hlist⟩ := hok.2.showAll h hl fun d hd => by
    obtain ⟨id, hrec, hflt⟩ := hans d hd
    exact ⟨ho.readBy_documents hd, ⟨id, hrec⟩, hflt _ List.mem_cons_self⟩
  rw [← hl'] at hop hlist
  exact ⟨hop, hlist⟩

theorem screenOK_comments {v : CommentsViewController} {comments : List Comment}
    {rows : RowList Comment} (h : s.Inv sync)
    (ho : s.HandsOver f (.documents (.ok ds)) .comments ⟨container, opener, user, .comments v⟩)
    (hdec : decodeAll (Comment.ofDocument true) ds = .ok comments)
    (hrows : v.commentsToShow.removeAll.appendAll comments = .ok rows) :
    s.ScreenOK sync f.client f.node
      ⟨container, opener, user, .comments { v with commentsToShow := rows }⟩ := by
  have hcalls := h.calls f ho.call
  have hans := h.answers f ho.call _ ho.reply
  have hok := h.screens _ _ _ ho.node
  have hk := ho.callback
  generalize f.request = req at hcalls hans hk
  cases hcalls <;> cases hk
  case comments postID =>
  refine ⟨hok.1, fun x hx => ?_⟩
  have hitems : rows.items = [] ++ comments := RowList.items_appendAll hrows
  change x ∈ rows.items at hx
  rw [hitems] at hx
  obtain ⟨d, hd, hcomment⟩ := mem_decodeAll hdec hx
  obtain ⟨id, hrec, hflt⟩ := hans d hd
  have hid := h.commentID_eq hrec hcomment
  exact ⟨d, ho.readBy_documents hd, hcomment, hid ▸ hrec,
    hflt _ (List.mem_cons_of_mem _ List.mem_cons_self)⟩

/-- What a moderation screen has loaded is pending. -/
theorem HandsOver.readPending (h : s.Inv sync)
    (ho : s.HandsOver f (.documents (.ok ds)) .pending n) {m : CollectionName}
    (hm : Moderated m n.screen.kind) (hd : d ∈ ds) :
    ∃ id, s.Recorded m id d ∧ s.ReadPending f.client f.node m id := by
  have hcalls := h.calls f ho.call
  have hans := h.answers f ho.call _ ho.reply
  have hk := ho.callback
  generalize f.request = req at hcalls hans hk
  cases hcalls <;> cases hk
  case pending nd m' limit hnd hm' =>
  cases hnd.symm.trans ho.node
  obtain ⟨id, hrec, hflt⟩ := hans d hd
  generalize n.screen.kind = kind at hm hm'
  cases hm <;> cases hm' <;>
    exact ⟨id, hrec, d, ho.readBy_documents hd, hrec, hflt _ List.mem_cons_self⟩

theorem screenOK_pendingPosts {v rows : PendingList AEPost} {posts : List AEPost} (h : s.Inv sync)
    (ho : s.HandsOver f (.documents (.ok ds)) .pending
      ⟨container, opener, user, .moderationPosts v⟩)
    (hdec : decodeAll AEPost.ofDocument ds = .ok posts)
    (hrows : v.removeAll.appendAll posts = .ok rows) :
    s.ScreenOK sync f.client f.node ⟨container, opener, user, .moderationPosts rows⟩ := by
  have hok := h.screens _ _ _ ho.node
  refine ⟨hok.1, fun x hx => ?_⟩
  have hitems : rows.items = [] ++ posts := RowList.items_appendAll hrows
  rw [hitems] at hx
  obtain ⟨d, hd, hpost⟩ := mem_decodeAll hdec hx
  obtain ⟨id, hrec, hread⟩ := ho.readPending h .posts hd
  exact h.id_eq hrec hpost ▸ hread

theorem screenOK_pendingComments {v rows : PendingList Comment} {comments : List Comment}
    (h : s.Inv sync)
    (ho : s.HandsOver f (.documents (.ok ds)) .pending
      ⟨container, opener, user, .moderationComments v⟩)
    (hdec : decodeAll (Comment.ofDocument false) ds = .ok comments)
    (hrows : v.removeAll.appendAll comments = .ok rows) :
    s.ScreenOK sync f.client f.node ⟨container, opener, user, .moderationComments rows⟩ := by
  have hok := h.screens _ _ _ ho.node
  refine ⟨hok.1, fun x hx => ?_⟩
  have hitems : rows.items = [] ++ comments := RowList.items_appendAll hrows
  rw [hitems] at hx
  obtain ⟨d, hd, hcomment⟩ := mem_decodeAll hdec hx
  obtain ⟨id, hrec, hread⟩ := ho.readPending h .comments hd
  exact h.commentID_eq hrec hcomment ▸ hread

/-- **The screen after one of its closures has been called** is based on the answer. -/
theorem screenOK_of_receive (h : s.Inv sync) (ho : s.HandsOver f r kb n)
    (hres : n.screen.receive env kb r = some (.ok (screen, es))) :
    s.ScreenOK sync f.client f.node { n with screen := screen } := by
  have hok := h.screens _ _ _ ho.node
  obtain ⟨container, opener, user, scr⟩ := n
  change scr.receive env kb r = _ at hres
  cases Screen.receive_learns hres with
  | unchanged => exact hok
  | cell hl hf => exact hok.follows (Screen.follows_setListing hl hf)
  | homePosts hl => exact screenOK_homePosts h ho hl
  | menu hx => exact screenOK_menu h ho hx
  | otherInfo hl => exact hok.follows (.otherProfile (by rw [hl]; exact .refl _))
  | otherPosts hl => exact screenOK_otherPosts h ho hl
  | savedUser => exact listOK_removeAll
  | savedPost hl => exact screenOK_savedPost h ho hl
  | profilePosts hl => exact screenOK_profilePosts h ho hl
  | profileInfo hl => exact hok.follows (.userProfile (by rw [hl]; exact .refl _))
  | comments hdec hrows => exact screenOK_comments h ho hdec hrows
  | commentUser => exact hok
  | pendingPosts hdec hrows => exact screenOK_pendingPosts h ho hdec hrows
  | pendingComments hdec hrows => exact screenOK_pendingComments h ho hdec hrows
  | deniedPost hrem | deniedComment hrem =>
    refine ⟨hok.1, fun x hx => hok.2 x ?_⟩
    rw [RowList.items_removeAt hrem] at hx
    exact List.mem_of_mem_eraseIdx hx
  | uploadSet | signUp | logIn => trivial

/-- **The effects of a closure** are based on the answer. -/
theorem effectOK_of_answers (h : s.Inv sync) (ho : s.HandsOver f r kb n)
    (hsign : ∀ uid, r = .auth (.ok uid) → (s.clients f.client).currentUser = some uid)
    {e : Effect} (he : n.screen.Answers env kb r e) :
    s.EffectOK sync f.client f.node (s.clients f.client).currentUser e := by
  obtain ⟨hf, hdel, hrep, hk, hn⟩ := ho
  have hcalls := h.calls f hf
  have hans := h.answers f hf r hrep
  have hok := h.screens _ _ _ hn
  obtain ⟨container, opener, user, scr⟩ := n
  generalize hreq : f.request = req at hcalls hans hk
  cases he with
  | alert title message => trivial
  | cell u j hu hl => exact .cellSavedPosts u j
  | savedPost ids id hd hid =>
    cases hcalls <;> cases hk
    case savedPost.savedUser.refl nd u hnd hu =>
    cases hnd.symm.trans hn
    have hsaved := hans.1 id (by rw [hd]; exact hid)
    refine .savedPost _ id hn hsaved.1 fun hs v hv => ?_
    cases (hu hs).symm.trans hv
    exact hsaved.2 hs
  | uploadSet postUUID opID mediaID titleText descriptionText opName =>
    cases hcalls <;> cases hk
    case uploadSet.uploadUser.refl hu =>
      exact .uploadSet _ _ _ _ _ _ _ _ ⟨f, hf, rfl, rfl, hu, hreq⟩
  | commentSet commentID opID message opName =>
    cases hcalls <;> cases hk
    case commentSet.commentUser.refl hu =>
      exact .commentSet _ _ _ _ _ _ hok.1 ⟨f, hf, rfl, rfl, hu, hreq⟩
  | userSet nameText uid =>
    cases hcalls <;> cases hk
    case userSet.createUser.refl nd email password hnd hkind =>
      exact .userSet uid nameText (hsign uid rfl) ⟨f, hf, rfl, rfl, ⟨email, password, hreq⟩,
        hrep, hdel⟩
  | signedUp nameText r => trivial
  | signedIn uid => trivial

end Answers

end System

end ArtsExplorer
