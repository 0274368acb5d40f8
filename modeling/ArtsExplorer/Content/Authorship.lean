import ArtsExplorer.Content.Ownership
import ArtsExplorer.Feeds.Snapshots

/-!
# Names of authors

Posts and comments carry the id and the name of their author. The id is that of the user who was
signed in when the button was pressed; the name is read from that user's document for the press,
before the write. So every name on a screen, also after the author has changed it, was the name of
that author at some moment (`bylines_signed`). A profile or comments screen is opened for the author
or the id of such a post, and its title is made of the name (`headings_signed`).
-/

namespace ArtsExplorer

open Foundations

/-- Who a post or comment on a screen is said to be by. -/
structure Byline where
  collection : CollectionName
  id : String
  authorID : String
  authorName : String
  deriving DecidableEq

/-- The field with the name of the author of a document. -/
def CollectionName.nameField : CollectionName → String
  | .users => "name"
  | .posts => "opName"
  | .comments => "commenterName"

def AEPost.byline (post : AEPost) : Byline := ⟨.posts, post.id, post.opID, post.opName⟩

def Comment.byline (comment : Comment) : Byline :=
  ⟨.comments, comment.commentID, comment.commenterID, comment.commenterName⟩

/-- The bylines on a screen. -/
def Screen.bylines : Screen → List Byline
  | .home s => s.listing.postsToShow.items.map AEPost.byline
  | .otherProfile s => s.listing.postsToShow.items.map AEPost.byline
  | .saved s => s.listing.postsToShow.items.map AEPost.byline
  | .userProfile s => s.listing.postsToShow.items.map AEPost.byline
  | .comments s => s.commentsToShow.items.map Comment.byline
  | .moderationPosts s => s.items.map AEPost.byline
  | .moderationComments s => s.items.map Comment.byline
  | _ => []

/-- A segue that is made from what a byline says. -/
inductive Destination.IsFor : Destination → Byline → Prop
  | comments (b : Byline) (hb : b.collection = .posts) : IsFor (.comments b.id b.authorName) b
  | otherProfile (b : Byline) (hb : b.collection = .posts) :
      IsFor (.otherProfile b.authorID b.authorName) b

/-- The title that a screen gets from its segue. -/
def Destination.title : Destination → String
  | .comments _ opName => "Comments on " ++ opName ++ "'s post"
  | _ => ""

namespace Screen

variable {env : Env} {scr scr' : Screen} {es : List Effect}

/-- The write that a closure makes carries the name that it has been given. -/
theorem receive_setData {k : Callback} {r : Reply} {n : CollectionName} {id : String}
    {fields : List (String × Value)} {kb : Callback} (hn : n ≠ .users)
    (h : scr.receive env k r = some (.ok (scr', es)))
    (he : .request (.setData n id fields kb) ∈ es) : ∃ opID name d,
      r = .document (some d) ∧ d "name" = some (.string name) ∧ k.claims = [(n, id)] ∧
        fields.lookup n.authorField = some (.string opID) ∧
          fields.lookup n.nameField = some (.string name) ∧
            ((∃ mediaID titleText descriptionText,
                k = .uploadUser id opID mediaID titleText descriptionText) ∨
              ∃ message, k = .commentUser id opID message) := by
  have hans := (receive_answers h).2 _ he
  cases hans with
  | userSet => exact absurd rfl hn
  | @uploadSet s d postUUID opID mediaID titleText descriptionText opName =>
    simp only [receive, UploadViewController.userReply, Option.some.injEq, lift_eq_ok, bind_eq_ok,
      getString_eq_ok, pure_eq_ok, Prod.mk.injEq] at h
    obtain ⟨_, ⟨name, hname, rfl⟩, -, rfl⟩ := h
    have hnames : opName = name := by
      simpa [postDocument] using List.mem_singleton.1 he
    exact ⟨opID, opName, d, rfl, hnames ▸ hname, rfl, rfl, rfl, .inl ⟨_, _, _, rfl⟩⟩
  | @commentSet s d commentID opID message opName =>
    simp only [receive, CommentsViewController.userReply, Option.some.injEq, lift_eq_ok, bind_eq_ok,
      getString_eq_ok, pure_eq_ok, Prod.mk.injEq] at h
    obtain ⟨_, ⟨name, hname, rfl⟩, -, rfl⟩ := h
    have hnames : opName = name := by
      simpa [commentDocument] using List.mem_singleton.1 he
    exact ⟨opID, opName, d, rfl, hnames ▸ hname, rfl, rfl, rfl, .inr ⟨_, rfl⟩⟩

/-- A screen is created with the heading of its segue. -/
theorem heading_of_loaded {d : Destination} {rs : List Request} (h : Loaded env d scr rs)
    {d' : Destination} {title : String}
    (hh : scr.heading = some (d', title)) : d' = d ∧ title = d.title := by
  cases h <;> cases hh <;> exact ⟨rfl, rfl⟩

/-- A profile or comments screen is opened for one of the posts of a list. -/
theorem isFor_of_emits {env' : Env} {a : Action} {d d' : Destination} {rs : List Request}
    {title : String} (h : Emits env scr a (.segue d)) (hl : Loaded env' d scr' rs)
    (hh : scr'.heading = some (d', title)) :
    ∃ l, scr.listing = some l ∧ ∃ post ∈ l.postsToShow.items, d.IsFor post.byline := by
  cases h with
  | table hlist he =>
    generalize a.byUser = b at he
    cases he with
    | comments post hp => exact ⟨_, hlist, post, hp, .comments post.byline rfl⟩
    | otherProfile post hp => exact ⟨_, hlist, post, hp, .otherProfile post.byline rfl⟩
  | _ =>
    cases hl
    all_goals cases hh

/-- An action writes no new document. -/
theorem not_emits_setData {a : Action} {n : CollectionName} {id : String}
    {fields : List (String × Value)} {k : Callback} :
    ¬ Emits env scr a (.request (.setData n id fields k)) := by
  intro h
  cases h with
  | table hl he =>
    generalize a.byUser = b at he
    cases he

end Screen

namespace System

section Signed

variable {ι : Type}

/-- For a press that was to create document `id`, the document of `u` has been read, and said
`name`. -/
def ReadName (s : System ι) (n : CollectionName) (id u name : String) : Prop :=
  ∃ g ∈ s.net, g.user = some u ∧ (∃ k, g.request = .getDocument .users u k ∧ k.claims = [(n, id)]) ∧
    ∃ d, g.reply = some (.document (some d)) ∧ d "name" = some (.string name)

/-- A byline that a document was created with. -/
def Bears (s : System ι) (b : Byline) : Prop :=
  ∃ fields, s.Created b.collection b.id fields ∧
    fields.lookup b.collection.authorField = some (.string b.authorID) ∧
      fields.lookup b.collection.nameField = some (.string b.authorName)

/-- A byline that is true: its author was signed in at the press that was to create the document,
and the press's read of the author's document found the name there, as it was stored at some
moment. -/
def Signed [DecidableEq ι] (s : System ι) (b : Byline) : Prop :=
  s.Bears b ∧ ∃ g ∈ s.net, g.user = some b.authorID ∧
    (∃ k, g.request = .getDocument .users b.authorID k ∧ k.claims = [(b.collection, b.id)]) ∧
      ∃ d, g.reply = some (.document (some d)) ∧ d "name" = some (.string b.authorName) ∧
        ∃ u : System ι, u.Precedes s ∧ (u.store .users).lookup b.authorID = some d

variable {s t : System ι}

theorem Extends.readName (h : s.Extends t) {n : CollectionName} {id u name : String}
    (hr : s.ReadName n id u name) : t.ReadName n id u name := by
  obtain ⟨g, hg, hu, ⟨k, hreq, hk⟩, d, hrep, hd⟩ := hr
  obtain ⟨g', hg', hgr⟩ := h.mem_net hg
  exact ⟨g', hg', hgr.user.trans hu, ⟨k, hgr.request.trans hreq, hk⟩, d, hgr.reply _ hrep, hd⟩

theorem Extends.bears (h : s.Extends t) {b : Byline} (hb : s.Bears b) : t.Bears b := by
  obtain ⟨fields, hc, hfields⟩ := hb
  exact ⟨fields, h.created hc, hfields⟩

/-- A post that is read from a recorded document has the byline of the document. -/
theorem Inv.bears_post (h : s.Inv False) {id : String} {d : Document} {post : AEPost}
    (hr : s.Recorded .posts id d) (hd : AEPost.ofDocument d = .ok post) : s.Bears post.byline := by
  have hid : post.id = id := h.id_eq hr hd
  subst hid
  obtain ⟨fields, hc, hfields⟩ := hr.created
  obtain ⟨-, hop, hname, -⟩ := AEPost.ofDocument_eq_ok.1 hd
  exact ⟨fields, hc, (hfields "opID" (by decide)).symm.trans hop,
    (hfields "opName" (by decide)).symm.trans hname⟩

theorem Inv.bears_comment (h : s.Inv False) {id : String} {d : Document} {b : Bool}
    {comment : Comment} (hr : s.Recorded .comments id d)
    (hd : Comment.ofDocument b d = .ok comment) : s.Bears comment.byline := by
  have hid : comment.commentID = id := h.commentID_eq hr hd
  subst hid
  obtain ⟨fields, hc, hfields⟩ := hr.created
  obtain ⟨-, -, hname, hop, -⟩ := Comment.ofDocument_eq_ok.1 hd
  exact ⟨fields, hc, (hfields "commenterID" (by decide)).symm.trans hop,
    (hfields "commenterName" (by decide)).symm.trans hname⟩

/-! ## The contract -/

/-- The contract of the names: a heading is for a byline, and a write carries the name that was read
for its press. -/
def named (ι : Type) : Contract ι where
  screen s scr := ∀ d title, scr.heading = some (d, title) →
    title = d.title ∧ ∃ b, d.IsFor b ∧ s.Bears b
  call s _ r := ∀ n id fields k, n ≠ .users → r = .setData n id fields k → ∃ u name,
    fields.lookup n.authorField = some (.string u) ∧
      fields.lookup n.nameField = some (.string name) ∧ s.ReadName n id u name
  answer _ _ _ := True

/-- The posts of a list have bylines of documents. -/
theorem Inv.bears_listing (h : s.Inv False) {c : ι} {k : ℕ} {n : Node} (hn : s.At c k n)
    {l : PostListing} (hl : n.screen.listing = some l) {post : AEPost}
    (hp : post ∈ l.postsToShow.items) : s.Bears post.byline := by
  have hok := h.screens c k n hn
  obtain ⟨container, opener, user, screen⟩ := n
  have hread : ∃ d, AEPost.ofDocument d = .ok post ∧ s.Recorded .posts post.id d := by
    cases screen <;> cases hl
    case home =>
      obtain ⟨d, -, hd, hrec, -⟩ := hok.1.posts post hp
      exact ⟨d, hd, hrec⟩
    case otherProfile | saved =>
      obtain ⟨d, -, hd, hrec, -⟩ := hok.posts post hp
      exact ⟨d, hd, hrec⟩
    case userProfile =>
      obtain ⟨d, -, hd, hrec, -⟩ := hok.2.posts post hp
      exact ⟨d, hd, hrec⟩
  obtain ⟨d, hd, hrec⟩ := hread
  exact h.bears_post hrec hd

/-- The call whose closure writes a document is the read of the user who was signed in. -/
theorem Inv.read_of_claims (h : s.Inv False) {f : Flight ι} (hf : f ∈ s.net) {k : Callback}
    (hk : f.request.callback = some k) {id opID : String}
    (hpress : (∃ mediaID titleText descriptionText,
      k = .uploadUser id opID mediaID titleText descriptionText) ∨
        ∃ message, k = .commentUser id opID message) :
    f.user = some opID ∧ f.request = .getDocument .users opID k := by
  have hcalls := h.calls f hf
  generalize f.request = req at hcalls hk
  rcases hpress with ⟨_, _, _, rfl⟩ | ⟨_, rfl⟩
  · cases hcalls <;> cases hk
    exact ⟨‹_›, rfl⟩
  · cases hcalls <;> cases hk
    exact ⟨‹_›, rfl⟩

theorem named_sound (ι : Type) [DecidableEq ι] : (named ι).Sound where
  screen he h d title hh := by
    obtain ⟨ht, b, hb, hbears⟩ := h d title hh
    exact ⟨ht, b, hb, he.bears hbears⟩
  call he h n id fields k hn hr := by
    obtain ⟨u, name, hu, hname, hread⟩ := h n id fields k hn hr
    exact ⟨u, name, hu, hname, he.readName hread⟩
  answer _ h := h
  initial _ _ _ hh := by cases hh
  tabBar _ _ _ hh := by cases hh
  home _ := by
    refine ⟨fun _ _ hh => (by cases hh), fun r hr n id fields k _ hreq => ?_⟩
    cases List.mem_singleton.1 hr
    cases hreq
  act {s c k n a env scr' es} hreach hn hscr _ hact := by
    have hinv : s.Inv False := reachable_inv (hreach.mono fun _ _ _ => False.elim)
    refine ⟨fun d title hh => hscr d title (Screen.act_heading hact ▸ hh), fun _ _ h => h,
      fun e he => ?_⟩
    have hemits := (Screen.act_spec hact).2.2 e he
    cases e with
    | request r =>
      intro m id fields kb _ hreq
      exact absurd (hreq ▸ hemits) Screen.not_emits_setData
    | segue d =>
      intro env' scr'' es' hload
      obtain ⟨rs, hloaded, rfl⟩ := Screen.load_loaded hload
      refine ⟨fun d' title hh => ?_, fun r hr m id fields kb _ hreq => ?_⟩
      · obtain ⟨rfl, rfl⟩ := Screen.heading_of_loaded hloaded hh
        obtain ⟨l, hl, post, hp, hfor⟩ := Screen.isFor_of_emits hemits hloaded hh
        exact ⟨rfl, _, hfor, (extends_draw a env).bears (hinv.bears_listing hn hl hp)⟩
      · subst hreq
        cases hloaded <;> simp at hr
    | _ => trivial
  receive {s f r kb n env scr' es} hreach hkept hf hr hk hn hres := by
    have hinv : s.Inv False := reachable_inv (hreach.mono fun _ _ _ => False.elim)
    refine ⟨fun d title hh => hkept.screens _ _ _ hn d title (Screen.receive_heading hres ▸ hh),
      fun _ _ h => h, fun e he => ?_⟩
    cases e with
    | request req =>
      intro m id fields kb' hm hreq
      subst hreq
      obtain ⟨opID, name, d, rfl, hd, hclaims, hauthor, hname, hpress⟩ :=
        Screen.receive_setData hm hres he
      obtain ⟨hu, hfr⟩ := hinv.read_of_claims hf hk hpress
      exact ⟨opID, name, hauthor, hname, f, hf, hu, ⟨kb, hfr, hclaims⟩, d, hr, hd⟩
    | segue d => exact absurd he (Screen.segue_notMem_receive hres d)
    | _ => trivial
  serve _ _ _ _ := trivial

/-! ## The names -/

variable [DecidableEq ι] {c : ι} {k : ℕ} {n : Node}

/-- **A byline of a document is true.** -/
theorem Bears.signed (h : (machine ι).Reachable s) {b : Byline} (hn : b.collection ≠ .users)
    (hb : s.Bears b) : s.Signed b := by
  refine ⟨hb, ?_⟩
  obtain ⟨fields, ⟨f, hf, kb, hreq, hrep⟩, hauthor, hname⟩ := hb
  obtain ⟨_, -, hcall⟩ := ((named_sound ι).kept h).calls f hf
  obtain ⟨u, name, hu, hname', g, hg, hguser, ⟨k', hgreq, hk'⟩, d, hgrep, hd⟩ :=
    hcall _ _ _ _ hn hreq
  cases hu.symm.trans hauthor
  cases hname'.symm.trans hname
  obtain ⟨v, hv, hlookup⟩ := exists_lookup h hg hgreq hgrep
  exact ⟨g, hg, hguser, ⟨k', hgreq, hk'⟩, d, hgrep, hd, v, hv, hlookup⟩

/-- The items of a moderation list have bylines of documents. -/
theorem bears_of_whole {α : Type} {m : CollectionName} {q : Query}
    {decode : Document → Except Fault α} {byline : α → Byline} {xs : List α}
    (hw : Screen.Whole s.WasTop m q decode xs) (hm : m ≠ .users)
    (hread : ∀ id d x, s.Recorded m id d → decode d = .ok x → s.Bears (byline x)) {x : α}
    (hx : x ∈ xs) : s.Bears (byline x) := by
  rcases hw with rfl | ⟨ds, hds, hdec⟩
  · cases hx
  · obtain ⟨d, hd, hok⟩ := mem_decodeAll hdec hx
    obtain ⟨id, hrec⟩ := hds.recorded hm hd
    exact hread id d x hrec hok

theorem bears_of_mem (h : (machine ι).Reachable s) (hn : s.At c k n) {b : Byline}
    (hb : b ∈ n.screen.bylines) : s.Bears b ∧ b.collection ≠ .users := by
  have hinv : s.Inv False := reachable_inv (h.mono fun _ _ _ => False.elim)
  have hlisting : ∀ l, n.screen.listing = some l →
      b ∈ l.postsToShow.items.map AEPost.byline → s.Bears b ∧ b.collection ≠ .users := by
    intro l hl hmem
    obtain ⟨post, hp, rfl⟩ := List.mem_map.1 hmem
    exact ⟨hinv.bears_listing hn hl hp, by simp [AEPost.byline]⟩
  have hok := hinv.screens c k n hn
  have hlists := (listsFrom_got h hn).mono fun _ _ _ hg => hg.wasTop h
  obtain ⟨container, opener, user, screen⟩ := n
  cases screen
  case home v => exact hlisting v.listing rfl hb
  case otherProfile v => exact hlisting v.listing rfl hb
  case saved v => exact hlisting v.listing rfl hb
  case userProfile v => exact hlisting v.listing rfl hb
  case comments v =>
    obtain ⟨x, hx, rfl⟩ := List.mem_map.1 hb
    obtain ⟨d, -, hd, hrec, -⟩ := hok.2 x hx
    exact ⟨hinv.bears_comment hrec hd, by simp [Comment.byline]⟩
  case moderationPosts l =>
    obtain ⟨x, hx, rfl⟩ := List.mem_map.1 hb
    obtain ⟨xs, hw, hsub⟩ := hlists
    exact ⟨bears_of_whole hw (by decide) (fun id d x hrec hd => hinv.bears_post hrec hd)
      (hsub.subset hx), by simp [AEPost.byline]⟩
  case moderationComments l =>
    obtain ⟨x, hx, rfl⟩ := List.mem_map.1 hb
    obtain ⟨xs, hw, hsub⟩ := hlists
    exact ⟨bears_of_whole hw (by decide) (fun id d x hrec hd => hinv.bears_comment hrec hd)
      (hsub.subset hx), by simp [Comment.byline]⟩
  all_goals cases hb

/-- **The bylines on a screen are true.** -/
theorem bylines_signed (h : (machine ι).Reachable s) (hn : s.At c k n) {b : Byline}
    (hb : b ∈ n.screen.bylines) : s.Signed b := by
  obtain ⟨hbears, hcol⟩ := bears_of_mem h hn hb
  exact hbears.signed h hcol

/-- Ann's approved post on her home screen. -/
theorem bylines_signed_home : ∃ s : System ℕ, s.Signed ⟨.posts, "post", "ann", "Ann"⟩ := by
  obtain ⟨s, hs, hp⟩ := (machine ℕ).exists_of_run (start annMoAndMax) approvedPostEvents
    (fun s => (s.clients 0).nodes[3]?.any fun n : Node =>
      decide ((⟨.posts, "post", "ann", "Ann"⟩ : Byline) ∈ n.screen.bylines)) (by decide +kernel)
  obtain ⟨n, hn, hp⟩ := (Option.any_eq_true _ _).1 hp
  exact ⟨s, bylines_signed (hs.reachable (reachable_start _)) hn (of_decide_eq_true hp)⟩

/-- **A profile or comments screen is for a post with a true byline**, and says so. -/
theorem headings_signed (h : (machine ι).Reachable s) (hn : s.At c k n) {d : Destination}
    {title : String} (hh : n.screen.heading = some (d, title)) :
    title = d.title ∧ ∃ b, d.IsFor b ∧ s.Signed b := by
  obtain ⟨htitle, b, hfor, hbears⟩ := ((named_sound ι).kept h).screens c k n hn d title hh
  refine ⟨htitle, b, hfor, hbears.signed h ?_⟩
  cases hfor <;> simp [*]

/-- Ann opens the comments on her post. -/
theorem headings_signed_comments : ∃ s : System ℕ,
    "Comments on Ann's post" = (Destination.comments "post" "Ann").title ∧
      ∃ b, (Destination.comments "post" "Ann").IsFor b ∧ s.Signed b := by
  obtain ⟨s, hs, hp⟩ := (machine ℕ).exists_of_run (start annMoAndMax)
    (approvedPostEvents ++ [.act 0 3 (.table (.cellForRowAt 0 none)) {},
      .act 0 3 (.table (.pressedViewComments 0)) {}])
    (fun s => (s.clients 0).nodes[5]?.any fun n : Node =>
      decide (n.screen.heading =
        some (Destination.comments "post" "Ann", "Comments on Ann's post")))
    (by decide +kernel)
  obtain ⟨n, hn, hp⟩ := (Option.any_eq_true _ _).1 hp
  exact ⟨s, headings_signed (hs.reachable (reachable_start _)) hn (of_decide_eq_true hp)⟩

end Signed

end System

end ArtsExplorer
