import ArtsExplorer.Feeds.Snapshots
import ArtsExplorer.System.Faults

/-!
# From the store to the screen

What a query finds in the store when it is served is what its screen lists when the answer is
delivered, whatever happens in between (`queries_shown`): a loader neither stops at a document nor
leaves one out. So whoever asks at a time when a post or comment is stored that the query selects is
shown it, unless the limit is used up by items that rank before it (`selected_listed`).
-/

namespace ArtsExplorer

open Foundations

theorem exists_decodeAll {α : Type} {decode : Document → Except Fault α} {ds : List Document}
    (h : ∀ d ∈ ds, ∃ x, decode d = .ok x) : ∃ xs, decodeAll decode ds = .ok xs := by
  induction ds with
  | nil => exact ⟨[], rfl⟩
  | cons d ds ih =>
    obtain ⟨x, hx⟩ := h d List.mem_cons_self
    obtain ⟨xs, hxs⟩ := ih fun d' hd' => h d' (List.mem_cons_of_mem _ hd')
    exact ⟨x :: xs, by rw [decodeAll, hx, hxs]; rfl⟩

/-- The loop over the documents of an answer goes through. -/
theorem PostListing.exists_showAll {l : PostListing} (h : l.postsToShow.Aligned)
    {ds : List Document} (hds : ∀ d ∈ ds, d.Conforms (CollectionName.schema .posts)) :
    ∃ posts l', decodeAll AEPost.ofDocument ds = .ok posts ∧ l.showAll ds = .ok l' ∧
      l'.postsToShow.items = l.postsToShow.items ++ posts := by
  obtain ⟨posts, hposts⟩ := exists_decodeAll fun d hd => AEPost.exists_ofDocument (hds d hd)
  obtain ⟨rows, hrows, hitems, -⟩ := RowList.appendAll_of_aligned h posts
  refine ⟨posts, { l with postsToShow := rows }, hposts, ?_, hitems⟩
  simp only [showAll, bind_eq_ok, trapping_eq_ok, pure_eq_ok]
  exact ⟨posts, hposts, rows, hrows, rfl⟩

/-- The load of a moderation screen goes through. -/
theorem Queue.exists_loadPendingReply {α : Type} {m : Queue α} {s : PendingList α}
    {ds : List Document} (hds : ∀ d ∈ ds, ∃ x, m.ofDocument d = .ok x) :
    ∃ s' es, m.loadPendingReply s (.ok ds) = .ok (s', es) ∧
      decodeAll m.ofDocument ds = .ok s'.items := by
  obtain ⟨items, hitems⟩ := exists_decodeAll hds
  obtain ⟨rows, hrows, heq, -⟩ :=
    RowList.appendAll_of_aligned (RowList.aligned_removeAll (l := s)) items
  simp only [loadPendingReply, bind_eq_ok, trapping_eq_ok, pure_eq_ok, Prod.mk.injEq]
  exact ⟨rows, _, ⟨items, hitems, rows, hrows, rfl, rfl⟩, by rw [hitems, heq]; rfl⟩

namespace Screen

variable {env : Env} {scr scr' : Screen} {es : List Effect} {n : CollectionName} {k : Callback}

/-- The screen has a closure `k` that lists the answers to queries of collection `n`. -/
def Hears : Screen → CollectionName → Callback → Prop
  | .home _, .posts, .homePosts | .otherProfile _, .posts, .otherPosts
  | .userProfile _, .posts, .profilePosts | .comments _, .comments, .comments
  | .moderationPosts _, .posts, .pending | .moderationComments _, .comments, .pending => True
  | _, _, _ => False

/-- What a screen that gets answer `ds` makes of its list: that of the answer, which the two
profiles append to what they have. -/
def Shows (ds : List Document) : Screen → Screen → Prop
  | .home _, .home s' => decodeAll AEPost.ofDocument ds = .ok s'.listing.postsToShow.items
  | .otherProfile s, .otherProfile s' => ∃ posts, decodeAll AEPost.ofDocument ds = .ok posts ∧
    s'.listing.postsToShow.items = s.listing.postsToShow.items ++ posts
  | .userProfile s, .userProfile s' => ∃ posts, decodeAll AEPost.ofDocument ds = .ok posts ∧
    s'.listing.postsToShow.items = s.listing.postsToShow.items ++ posts
  | .comments _, .comments s' =>
    decodeAll (Comment.ofDocument true) ds = .ok s'.commentsToShow.items
  | .moderationPosts _, .moderationPosts l' => decodeAll AEPost.ofDocument ds = .ok l'.items
  | .moderationComments _, .moderationComments l' =>
    decodeAll (Comment.ofDocument false) ds = .ok l'.items
  | _, _ => False

theorem Hears.congr (h : scr.Hears n k) (hk : scr'.kind = scr.kind) : scr'.Hears n k := by
  cases scr <;> cases n <;> cases k <;> cases h <;> cases scr' <;> cases hk <;> trivial

/-- The documents that a screen lists are dated. -/
theorem Hears.dated {d : Document} (h : scr.Hears n k) (hd : d.Conforms n.schema) :
    d "time" ≠ none := by
  have hfield : ∀ {time : ℕ}, d "time" = some (.timestamp time) → d "time" ≠ none := by
    intro time ht
    rw [ht]
    exact Option.some_ne_none _
  cases n with
  | users => cases scr <;> cases k <;> cases h
  | posts =>
    obtain ⟨time, ht⟩ := @Document.Conforms.timestamp d _ "time" hd (by decide)
    exact hfield ht
  | comments =>
    obtain ⟨time, ht⟩ := @Document.Conforms.timestamp d _ "time" hd (by decide)
    exact hfield ht

/-- **A screen shows an answer** with the documents of the schema, without a fault. -/
theorem receive_shows (env : Env) (hk : scr.Hears n k) (hin : scr.InOrder) {ds : List Document}
    (hds : ∀ d ∈ ds, d.Conforms n.schema) :
    ∃ scr' es, scr.receive env k (.documents (.ok ds)) = some (.ok (scr', es)) ∧
      scr.Shows ds scr' ∧ OnlyAlerts es := by
  cases scr <;> cases n <;> cases k <;> try exact absurd hk id
  case home s =>
    obtain ⟨posts, l', hposts, hshow, hitems⟩ :=
      PostListing.exists_showAll (l := s.listing.removeAll)
        (RowList.aligned_removeAll (l := s.listing.postsToShow)) hds
    have hres : s.loadPostsReply (.ok ds) = .ok ({ s with listing := l' },
        if l'.postsToShow.items.isEmpty then
          [.createAlert "Error" Constants.noPostsHereError] else []) := by
      simp only [HomeViewController.loadPostsReply, bind_eq_ok, pure_eq_ok]
      exact ⟨l', hshow, rfl⟩
    refine ⟨_, _, by rw [receive, hres]; rfl, ?_, homePostsReply_alerts hres⟩
    rw [Shows, hposts, hitems]
    rfl
  case otherProfile s =>
    obtain ⟨posts, hrows⟩ := hin.posts s.listing rfl
    obtain ⟨posts, l', hposts, hshow, hitems⟩ := PostListing.exists_showAll hrows.aligned hds
    have hres : s.loadPostsReply (.ok ds) = .ok ({ s with listing := l' }, []) := by
      simp only [OtherProfileViewController.loadPostsReply, bind_eq_ok, pure_eq_ok]
      exact ⟨l', hshow, rfl⟩
    exact ⟨.otherProfile { s with listing := l' }, _, by rw [receive, hres]; rfl,
      ⟨posts, hposts, hitems⟩, by simp [OnlyAlerts]⟩
  case userProfile s =>
    obtain ⟨posts, hrows⟩ := hin.posts s.listing rfl
    obtain ⟨posts, l', hposts, hshow, hitems⟩ := PostListing.exists_showAll hrows.aligned hds
    have hres : s.loadPostsReply (.ok ds) = .ok ({ s with listing := l' }, []) := by
      simp only [UserProfileViewController.loadPostsReply, bind_eq_ok, pure_eq_ok]
      exact ⟨l', hshow, rfl⟩
    exact ⟨.userProfile { s with listing := l' }, _, by rw [receive, hres]; rfl,
      ⟨posts, hposts, hitems⟩, by simp [OnlyAlerts]⟩
  case comments s =>
    obtain ⟨comments, hcomments⟩ :=
      exists_decodeAll fun d hd => Comment.exists_ofDocument (hds d hd) true
    obtain ⟨rows, hrows, hitems, -⟩ :=
      RowList.appendAll_of_aligned (RowList.aligned_removeAll (l := s.commentsToShow)) comments
    have hres : s.loadCommentsReply (.ok ds) = .ok ({ s with commentsToShow := rows }, []) := by
      simp only [CommentsViewController.loadCommentsReply, bind_eq_ok, trapping_eq_ok, pure_eq_ok]
      exact ⟨comments, hcomments, rows, hrows, rfl⟩
    refine ⟨_, _, by rw [receive, hres]; rfl, ?_, by simp [OnlyAlerts]⟩
    rw [Shows, hcomments, hitems]
    rfl
  case moderationPosts s =>
    obtain ⟨s', es, hres, hitems⟩ := Queue.exists_loadPendingReply (m := moderationPost) (s := s)
      fun d hd => AEPost.exists_ofDocument (hds d hd)
    exact ⟨.moderationPosts s', _, by rw [receive, hres]; rfl, hitems,
      pendingReplies_alerts.1 _ hres⟩
  case moderationComments s =>
    obtain ⟨s', es, hres, hitems⟩ := Queue.exists_loadPendingReply (m := moderationComment)
      (s := s) fun d hd => Comment.exists_ofDocument (hds d hd) false
    exact ⟨.moderationComments s', _, by rw [receive, hres]; rfl, hitems,
      pendingReplies_alerts.1 _ hres⟩

/-! ## The queries of the screens -/

/-- A query of the screen: it has a closure for the answer, and orders by the time. -/
def Queries (scr : Screen) (r : Request) : Prop :=
  ∀ n q k, r.query = some (n, q, k) → scr.Hears n k ∧ q.orderBy = "time"

theorem Queries.congr {r : Request} (h : scr.Queries r) (hk : scr'.kind = scr.kind) :
    scr'.Queries r := fun n q k hq => (h n q k hq).imp_left fun hh => hh.congr hk

theorem queries_of_query_none {r : Request} (h : r.query = none) : scr.Queries r := by
  intro n q k hq
  rw [h] at hq
  cases hq

/-- An action makes the queries of its screen. -/
theorem act_queries {a : Action} (h : scr.act env a = some (.ok (scr', es))) {r : Request}
    (hr : .request r ∈ es) : scr.Queries r := by
  have hasks := act_asks h hr
  have hem := (act_spec h).2.2 _ hr
  cases hem with
  | table hl he =>
    generalize a.byUser = b at he
    cases he <;> exact queries_of_query_none rfl
  | homePosts q hq =>
    intro n q' k hq'
    cases hq'
    obtain ⟨-, rfl | ⟨c, rfl⟩⟩ := hasks <;> exact ⟨trivial, rfl⟩
  | otherPosts | profilePosts =>
    intro n q k hq
    cases hq
    exact ⟨trivial, rfl⟩
  | @pending scr a n limit hm =>
    intro n' q k hq
    cases hq
    refine ⟨?_, rfl⟩
    cases scr <;> cases hm <;> trivial
  | _ => exact queries_of_query_none rfl

/-- No closure makes a query. -/
theorem receive_queries {r : Reply} (h : scr.receive env k r = some (.ok (scr', es)))
    {req : Request} (hr : .request req ∈ es) : scr.Queries req := by
  cases (receive_answers h).2 _ hr <;> exact queries_of_query_none rfl

/-- `viewDidLoad` makes the queries of its screen. -/
theorem loaded_queries {d : Destination} {rs : List Request} (h : Loaded env d scr rs)
    {r : Request} (hr : r ∈ rs) : scr.Queries r := by
  intro n q k hq
  cases h
  case userProfile | otherProfile =>
    simp only [List.mem_cons, List.not_mem_nil, or_false] at hr
    rcases hr with rfl | rfl <;> cases hq
    exact ⟨trivial, rfl⟩
  case saved =>
    cases List.mem_singleton.1 hr
    cases hq
  case comments | moderationPosts | moderationComments =>
    cases List.mem_singleton.1 hr
    cases hq
    exact ⟨trivial, rfl⟩
  all_goals cases hr

/-! ## What is listed -/

/-- The ids and times of what a screen lists. -/
def entries : Screen → List (String × ℕ)
  | .home s => s.listing.postsToShow.items.map fun post => (post.id, post.time)
  | .otherProfile s => s.listing.postsToShow.items.map fun post => (post.id, post.time)
  | .userProfile s => s.listing.postsToShow.items.map fun post => (post.id, post.time)
  | .comments s => s.commentsToShow.items.map fun comment => (comment.commentID, comment.time)
  | .moderationPosts l => l.items.map fun post => (post.id, post.time)
  | .moderationComments l => l.items.map fun comment => (comment.commentID, comment.time)
  | _ => []

end Screen

theorem map_of_decodeAll {α β : Type} {decode : Document → Except Fault α} {f : α → β}
    {g : (_ : String) × Document → β} {es : List ((_ : String) × Document)} {xs : List α}
    (h : decodeAll decode (es.map (·.2)) = .ok xs)
    (hread : ∀ e ∈ es, ∀ x, decode e.2 = .ok x → f x = g e) : xs.map f = es.map g := by
  induction es generalizing xs with
  | nil =>
    cases h
    rfl
  | cons e es ih =>
    simp only [List.map_cons, decodeAll, bind_eq_ok, pure_eq_ok] at h
    obtain ⟨x, hx, ys, hys, rfl⟩ := h
    rw [List.map_cons, List.map_cons, hread e List.mem_cons_self x hx,
      ih hys fun e' he' => hread e' (List.mem_cons_of_mem _ he')]

namespace System

variable {ι : Type} {u : System ι} {scr scr' : Screen} {n : CollectionName} {k : Callback}

/-- What has been listed of stored documents are their ids and times. -/
theorem suffix_entries (hinv : u.Inv False) {es : List ((_ : String) × Document)}
    (hes : ∀ e ∈ es, u.DocumentOK False n e.1 e.2) (hk : scr.Hears n k)
    (h : scr.Shows (es.map (·.2)) scr') :
    (es.map fun e => (e.1, e.2.time "time")) <:+ scr'.entries := by
  have hpost : n = .posts → ∀ e ∈ es, ∀ post, AEPost.ofDocument e.2 = .ok post →
      (post.id, post.time) = (e.1, e.2.time "time") := by
    rintro rfl e he post hx
    obtain ⟨hid, htime⟩ := read_post u e.1 e.2 post hinv (hes e he) hx
    rw [hid, Document.time, htime]
  have hcomment : n = .comments → ∀ a, ∀ e ∈ es, ∀ x, Comment.ofDocument a e.2 = .ok x →
      (x.commentID, x.time) = (e.1, e.2.time "time") := by
    rintro rfl a e he x hx
    obtain ⟨hid, htime⟩ := read_comment u e.1 e.2 x hinv (hes e he) hx
    rw [hid, Document.time, htime]
  cases scr <;> cases n <;> cases k <;> (try exact absurd hk id) <;> cases scr' <;>
    try exact absurd h id
  case home => exact (map_of_decodeAll h (hpost rfl)) ▸ List.suffix_refl _
  case otherProfile | userProfile =>
    obtain ⟨posts, hposts, hitems⟩ := h
    rw [Screen.entries, hitems, List.map_append, map_of_decodeAll hposts (hpost rfl)]
    exact List.suffix_append _ _
  case comments => exact (map_of_decodeAll h (hcomment rfl true)) ▸ List.suffix_refl _
  case moderationPosts => exact (map_of_decodeAll h (hpost rfl)) ▸ List.suffix_refl _
  case moderationComments => exact (map_of_decodeAll h (hcomment rfl false)) ▸ List.suffix_refl _

/-! ## Runs -/

/-- The contract that the screens list the answers to their queries. -/
def queriesHeard (ι : Type) : Contract ι where
  screen _ _ := True
  call _ scr r := scr.Queries r
  answer _ _ _ := True

theorem queriesHeard_sound (ι : Type) [DecidableEq ι] : (queriesHeard ι).Sound where
  screen _ h := h
  call _ h := h
  answer _ h := h
  initial _ := trivial
  tabBar _ := trivial
  home _ := ⟨trivial, fun r hr n q k hq => by
    cases List.mem_singleton.1 hr
    cases hq
    exact ⟨trivial, rfl⟩⟩
  act {s c k n a env scr' es} _ _ _ _ hact := by
    have hkind := (Screen.act_spec hact).1
    refine ⟨trivial, fun u r hr => hr.congr hkind, fun e he => ?_⟩
    cases e with
    | request r => exact (Screen.act_queries hact he).congr hkind
    | segue d =>
      intro env' scr'' es' hload
      obtain ⟨rs, hloaded, rfl⟩ := Screen.load_loaded hload
      exact ⟨trivial, fun r hr => Screen.loaded_queries hloaded (by simpa using hr)⟩
    | _ => trivial
  receive {s f r kb n env scr' es} _ _ _ _ _ _ hres := by
    have hkind := Screen.receive_kind hres
    refine ⟨trivial, fun u r hr => hr.congr hkind, fun e he => ?_⟩
    cases e with
    | request r => exact (Screen.receive_queries hres he).congr hkind
    | segue d => exact absurd he (Screen.segue_notMem_receive hres d)
    | _ => trivial
  serve _ _ _ _ := trivial

section Runs

variable [DecidableEq ι] {s s' t v : System ι} {c : ι} {i j : ℕ} {f : Flight ι} {q : Query}

/-- A handler that only shows alerts goes through. -/
theorem handle_alerts {m : Node} (hm : s.At c i m) {env : Env} {es : List Effect}
    (hes : Screen.OnlyAlerts es) :
    ((s.handle c i env (.ok (scr, es))).clients c).running = (s.clients c).running ∧
      (s.handle c i env (.ok (scr, es))).At c i { m with screen := scr } := by
  refine perform_induct (P := fun u => (u.clients c).running = (s.clients c).running ∧
    u.At c i { m with screen := scr }) _ c i ⟨?_, ?_⟩ fun u e he hu =>
      ⟨?_, Contract.at_performOne hu.2 env e⟩
  · rw [clients_modify, if_pos rfl]
    rfl
  · rw [At] at hm
    simp [At, Client.setScreen, hm]
  · obtain ⟨title, message, rfl⟩ := hes e he
    rw [performOne, clients_modify, if_pos rfl]
    exact hu.1

/-- **The delivery of an answer shows it.** -/
theorem deliver_shows (h : (machine ι).Reachable v) (hf : v.net[j]? = some f)
    (hq : f.request.query = some (n, q, k)) {ds : List Document}
    (hr : f.reply = some (.documents (.ok ds))) (halive : v.Alive f) {date : ℕ}
    (hs : v.deliver j date = some t) : (t.clients f.client).running = true ∧
      ∃ m m', v.At f.client f.node m ∧ t.At f.client f.node m' ∧ m.screen.Hears n k ∧
        m.screen.Shows ds m'.screen := by
  have hmem := List.mem_of_getElem? hf
  obtain ⟨m, hm, hcall⟩ := ((queriesHeard_sound ι).kept h).calls f hmem
  have hhears := (hcall n q k hq).1
  have hk : f.request.callback = some k := by
    generalize f.request = req at hq
    cases req <;> cases hq <;> rfl
  have hcollection : f.request.collection = some n := by
    generalize f.request = req at hq
    cases req <;> cases hq <;> rfl
  have hconforms : ∀ d ∈ ds, d.Conforms n.schema := fun d hd =>
    (reachable_typed h).held n d (.inr ⟨f, hmem, _, hcollection, hr, .inr ⟨ds, rfl, hd⟩⟩)
  have hin := ((tablesInOrder_sound ι).kept h).screens _ _ _ hm
  obtain ⟨g, r, hg, hgr, -, hcase⟩ := deliver_cases hs
  cases hf.symm.trans hg
  cases hr.symm.trans hgr
  rcases hcase with ⟨hdead, -⟩ | ⟨-, w, rfl, hcase⟩
  · exact absurd halive hdead
  obtain ⟨scr', es, hres, hshows, halerts⟩ := Screen.receive_shows
    (((v.mark j f).signIn f.client (.documents (.ok ds))).seenBy f.client { date := date })
    hhears hin hconforms
  rcases hcase with ⟨-, hnone⟩ | ⟨k', m', res, hk', hm', hres', rfl⟩
  · rw [hnone k m hk hm] at hres
    cases hres
  cases hk.symm.trans hk'
  cases Option.some.inj (hm.symm.trans hm')
  cases hres.symm.trans hres'
  obtain ⟨hrun, hat⟩ := handle_alerts hm' halerts
  exact ⟨hrun.trans halive.1, m, _, hm, hat, hhears, hshows⟩

/-- The call that has the answer to call `i` when it has been served: the answers of a snapshot
listener are calls of their own. -/
def answeredAt (s : System ι) (i : ℕ) : ℕ :=
  match (s.net[i]?).map Flight.request with
  | some (.addSnapshotListener _ _ _) => s.net.length
  | _ => i

/-- A query that is served with success is answered with what it finds. -/
theorem answer_of_serve (hf : s.net[i]? = some f) (hq : f.request.query = some (n, q, k))
    (hs : s.step (.serve i .success) = some s') :
    s'.net[s.answeredAt i]? =
      some { f with reply := some (.documents (.ok ((s.store n).getDocuments q))) } := by
  have hlt := (List.getElem?_eq_some_iff.1 hf).1
  simp only [step, serve, hf] at hs
  split_ifs at hs
  cases hreq : f.request with
  | getDocuments m q' k' =>
    rw [hreq] at hq
    cases hq
    simp only [hreq, evaluate, Option.some.injEq] at hs
    subst hs
    have hat : s.answeredAt i = i := by rw [answeredAt, hf, Option.map_some, hreq]
    rw [hat]
    exact List.getElem?_set_self hlt
  | addSnapshotListener m q' k' =>
    rw [hreq] at hq
    cases hq
    simp only [hreq, evaluate, Option.some.injEq] at hs
    subst hs
    simp [answeredAt, hf, hreq]
  | _ =>
    rw [hreq] at hq
    cases hq

/-- The answer to a query, delivered to a process that still runs, whatever has happened since it
was served. -/
theorem shows_of_run (h : (machine ι).Reachable s) (hf : s.net[i]? = some f)
    (hq : f.request.query = some (n, q, k)) (hserve : s.step (.serve i .success) = some s')
    {es : List (Event ι)} (hrun : (machine ι).Steps (fun _ _ => True) s' es v) (halive : v.Alive f)
    {date : ℕ} (hs : v.step (.deliver (s.answeredAt i) date) = some t) :
    (t.clients f.client).running = true ∧
      ∃ m m', v.At f.client f.node m ∧ t.At f.client f.node m' ∧ m.screen.Hears n k ∧
        m.screen.Shows ((s.store n).getDocuments q) m'.screen := by
  have hreach' : (machine ι).Reachable s' := .step h (e := .serve i .success) trivial hserve
  obtain ⟨g, hg, hgrows⟩ := (extends_of_steps hrun).net _ _ (answer_of_serve hf hq hserve)
  have halive' : v.Alive g := by
    rw [Alive, hgrows.client, hgrows.epoch]
    exact halive
  have hshown := deliver_shows (hrun.reachable hreach') hg (hgrows.request ▸ hq)
    (hgrows.reply _ rfl) halive' hs
  rwa [hgrows.client, hgrows.node] at hshown

/-- **From the store to the screen.** What a query finds when it is served is what its screen lists
when the answer is delivered; the delivery never ends the process. -/
theorem queries_shown (h : (machine ι).Reachable s) (hf : s.net[i]? = some f)
    (hq : f.request.query = some (n, q, k)) (hserve : s.step (.serve i .success) = some s')
    {es : List (Event ι)} (hrun : (machine ι).Steps (fun _ _ => True) s' es v) (halive : v.Alive f)
    {date : ℕ} (hs : v.step (.deliver (s.answeredAt i) date) = some t) :
    (t.clients f.client).running = true ∧
      ∃ m m', v.At f.client f.node m ∧ t.At f.client f.node m' ∧
        m.screen.Shows ((s.store n).getDocuments q) m'.screen := by
  obtain ⟨hrunning, m, m', hm, hm', -, hshows⟩ := shows_of_run h hf hq hserve hrun halive hs
  exact ⟨hrunning, m, m', hm, hm', hshows⟩

/-- **What is stored is listed.** A document that is stored and selected by a query when this is
served is listed by the screen that asked, when the answer is delivered, or the limit is used up by
items that rank before it. -/
theorem selected_listed (h : (machine ι).Reachable s) (hf : s.net[i]? = some f)
    (hq : f.request.query = some (n, q, k)) (hserve : s.step (.serve i .success) = some s')
    {es : List (Event ι)} (hrun : (machine ι).Steps (fun _ _ => True) s' es v) (halive : v.Alive f)
    {date : ℕ} (hs : v.step (.deliver (s.answeredAt i) date) = some t) {id : String} {d : Document}
    (hd : (s.store n).lookup id = some d) (hmatch : ∀ flt ∈ q.filters, flt.Matches d) :
    ∃ m', t.At f.client f.node m' ∧
      ((∃ time, (id, time) ∈ m'.screen.entries) ∨
        ∃ listed, listed <:+ m'.screen.entries ∧ listed.length = q.limit ∧ ∀ e ∈ listed,
          if q.descending then d.time "time" ≤ e.2 else e.2 ≤ d.time "time") := by
  obtain ⟨-, m, m', -, hm', hhears, hshows⟩ := shows_of_run h hf hq hserve hrun halive hs
  have hinv : s.Inv False := reachable_inv (h.mono fun _ _ _ => False.elim)
  have horder : q.orderBy = "time" := by
    obtain ⟨m₀, -, hcall⟩ := ((queriesHeard_sound ι).kept h).calls f (List.mem_of_getElem? hf)
    exact (hcall n q k hq).2
  obtain ⟨top, htop, hTop⟩ := (s.store n).exists_top q
  rw [htop] at hshows
  have hsuffix := suffix_entries hinv (fun e he =>
    hinv.stored n e.1 e.2 (Collection.mem_selected.1 (hTop.selected e he)).1) hhears hshows
  refine ⟨m', hm', ?_⟩
  by_cases hmem : (⟨id, d⟩ : (_ : String) × Document) ∈ top
  · exact .inl ⟨_, hsuffix.subset (List.mem_map.2 ⟨_, hmem, rfl⟩)⟩
  · have hconforms : d.Conforms n.schema := (reachable_typed h).held n d (.inl ⟨id, hd⟩)
    have hselected : (⟨id, d⟩ : (_ : String) × Document) ∈ (s.store n).selected q :=
      Collection.mem_selected.2 ⟨hd, hmatch, horder ▸ hhears.dated hconforms⟩
    obtain ⟨hlen, hbefore⟩ := hTop.full _ hselected hmem
    refine .inr ⟨_, hsuffix, by rw [List.length_map, hlen], fun e he => ?_⟩
    obtain ⟨e', he', rfl⟩ := List.mem_map.1 he
    have htime := (hbefore e' he').time
    rwa [horder] at htime

end Runs

/-- The query of Ann's refresh, on her home screen. -/
def IsRefresh (f : Flight ℕ) : Prop :=
  f.client = 0 ∧ f.node = 3 ∧
    f.request.query = some (.posts, HomeViewController.approvedPosts, .homePosts)

instance (f : Flight ℕ) : Decidable (IsRefresh f) := by
  unfold IsRefresh
  infer_instance

/-- After the query has been served Ann opens the menu; then the answer is delivered. -/
theorem exists_refresh : ∃ (s s' v t : System ℕ) (f : Flight ℕ) (d : Document),
    (machine ℕ).Reachable s ∧ s.net[9]? = some f ∧ IsRefresh f ∧
      (s.store .posts).lookup "post" = some d ∧ d "approved" = some (.bool true) ∧
      s.step (.serve 9 .success) = some s' ∧
      (machine ℕ).Steps (fun _ _ => True) s' [.act 0 3 .tappedMenu {}] v ∧ v.Alive f ∧
      v.step (.deliver (s.answeredAt 9) 7) = some t := by
  obtain ⟨s, hs, hp⟩ := (machine ℕ).exists_of_run (start annMoAndMax) refreshEvents
    (fun s => ((s.store .posts).lookup "post").any (fun d => d "approved" = some (.bool true)) &&
      (s.net[9]?).any fun f => decide (IsRefresh f) &&
        (s.step (.serve 9 .success)).any fun s' =>
          ((machine ℕ).run s' [.act 0 3 .tappedMenu {}]).any fun v : System ℕ =>
            decide (v.Alive f) && (v.step (.deliver (s.answeredAt 9) 7)).isSome)
    (by decide +kernel)
  rw [Bool.and_eq_true] at hp
  obtain ⟨d, hd, happroved⟩ := (Option.any_eq_true _ _).1 hp.1
  obtain ⟨f, hf, hp⟩ := (Option.any_eq_true _ _).1 hp.2
  rw [Bool.and_eq_true, decide_eq_true_eq] at hp
  obtain ⟨s', hs', hp'⟩ := (Option.any_eq_true _ _).1 hp.2
  obtain ⟨v, hv, hp'⟩ := (machine ℕ).exists_of_run s' _ _ hp'
  rw [Bool.and_eq_true, decide_eq_true_eq, Option.isSome_iff_exists] at hp'
  obtain ⟨halive, t, ht⟩ := hp'
  exact ⟨s, s', v, t, f, d, hs.reachable (reachable_start _), hf, hp.1, hd,
    of_decide_eq_true happroved, hs', hv, halive, ht⟩

theorem queries_shown_refresh : ∃ s t : System ℕ, ((s.store .posts).lookup "post").isSome = true ∧
    (t.clients 0).running = true ∧ ∃ m m' : Node, t.At 0 3 m' ∧
      m.screen.Shows ((s.store .posts).getDocuments HomeViewController.approvedPosts)
        m'.screen := by
  obtain ⟨s, s', v, t, f, d, hs, hf, ⟨hc, hk, hq⟩, hd, -, hserve, hrun, halive, ht⟩ :=
    exists_refresh
  obtain ⟨hrunning, m, m', -, hm', hshows⟩ := queries_shown hs hf hq hserve hrun halive ht
  rw [hc] at hrunning
  rw [hc, hk] at hm'
  exact ⟨s, t, by rw [hd]; rfl, hrunning, m, m', hm', hshows⟩

theorem selected_listed_refresh : ∃ (s t : System ℕ) (d : Document) (m' : Node),
    (s.store .posts).lookup "post" = some d ∧ t.At 0 3 m' ∧
      ((∃ time, ("post", time) ∈ m'.screen.entries) ∨
        ∃ listed, listed <:+ m'.screen.entries ∧ listed.length = 15 ∧
          ∀ e ∈ listed, d.time "time" ≤ e.2) := by
  obtain ⟨s, s', v, t, f, d, hs, hf, ⟨hc, hk, hq⟩, hd, happroved, hserve, hrun, halive, ht⟩ :=
    exists_refresh
  obtain ⟨m', hm', hlisted⟩ := selected_listed hs hf hq hserve hrun halive ht hd fun flt hflt => by
    cases List.mem_singleton.1 hflt
    exact happroved
  rw [hc, hk] at hm'
  exact ⟨s, t, d, m', hd, hm', hlisted⟩

end System

end ArtsExplorer
