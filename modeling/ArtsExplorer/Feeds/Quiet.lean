import ArtsExplorer.Feeds.Shown
import ArtsExplorer.Sessions.Registry
import ArtsExplorer.System.Screens

/-!
# Quiet screens

The list of a screen is filled by successful answers to its own loads, and by nothing else: not by
what is done on other screens and devices, nor by failures, other answers, launches or faults. A
moderator takes items out of a list (`lists_retained`). So a screen that has shown an answer is up
to date as long as the collection stays as it was when the query was served
(`current_when_quiet`). With the backend out of reach, all screens keep what they list, new ones
stay empty, nothing is written and nobody is signed in (`kept_offline`).
-/

namespace ArtsExplorer

open Foundations

/-- A successful answer that closure `k` puts in a list. -/
def Callback.Fills : Callback → Reply → Prop
  | .homePosts, .documents (.ok _) | .otherPosts, .documents (.ok _)
  | .profilePosts, .documents (.ok _) | .comments, .documents (.ok _)
  | .pending, .documents (.ok _) => True
  | .savedUser, .document (some _) | .savedPost, .document (some _) => True
  | _, _ => False

/-- The answer to a call that has failed, or that has found nothing. -/
def Reply.Fails : Reply → Prop
  | .document none | .documents (.error _) | .completion (some _) | .auth (.error _) => True
  | _ => False

theorem Callback.not_fills {r : Reply} (h : r.Fails) (k : Callback) : ¬ k.Fills r := by
  intro hk
  unfold Callback.Fills at hk
  split at hk <;> first | exact h | exact hk

namespace Screen

variable {env : Env} {scr scr' scr'' : Screen} {es : List Effect}

/-- The second screen lists what the first one does, a moderator's decisions aside. -/
def Retains : Screen → Screen → Prop
  | .home s, .home s' => s'.listing.postsToShow = s.listing.postsToShow
  | .otherProfile s, .otherProfile s' => s'.listing.postsToShow = s.listing.postsToShow
  | .saved s, .saved s' => s'.listing.postsToShow = s.listing.postsToShow
  | .userProfile s, .userProfile s' => s'.listing.postsToShow = s.listing.postsToShow
  | .comments s, .comments s' => s'.commentsToShow = s.commentsToShow
  | .moderationPosts l, .moderationPosts l' => l'.items.Sublist l.items
  | .moderationComments l, .moderationComments l' => l'.items.Sublist l.items
  | scr, scr' => scr'.kind = scr.kind

theorem Retains.refl (scr : Screen) : scr.Retains scr := by
  cases scr
  case moderationPosts | moderationComments => exact List.Sublist.refl _
  all_goals exact rfl

theorem Retains.kind (h : scr.Retains scr') : scr'.kind = scr.kind := by
  cases scr <;> cases scr' <;> first | rfl | exact h

theorem Retains.trans (h : scr.Retains scr') (h' : scr'.Retains scr'') : scr.Retains scr'' := by
  cases scr <;> cases scr' <;> cases h.kind <;> cases scr'' <;> cases h'.kind
  case moderationPosts | moderationComments => exact List.Sublist.trans h' h
  all_goals exact Eq.trans h' h

theorem retains_setListing {l l' : PostListing} (hl : scr.listing = some l)
    (h : l'.postsToShow = l.postsToShow) : scr.Retains (scr.setListing l') := by
  cases scr <;> cases hl <;> exact h

/-- **An action** fills no list. -/
theorem act_retains {a : Action} (h : scr.act env a = some (.ok (scr', es))) :
    scr.Retains scr' := by
  have hfollows := act_follows h
  cases hfollows with
  | home hl | otherProfile hl | saved hl | userProfile hl => exact hl.postsToShow
  | comments _ hc => exact hc
  | moderationPosts => exact moderationPosts_sublist h
  | moderationComments => exact moderationComments_sublist h
  | _ => exact rfl

/-- **An answer** fills a list if it is one to a load, and a success. -/
theorem receive_retains {k : Callback} {r : Reply} (h : scr.receive env k r = some (.ok (scr', es)))
    (hk : ¬ k.Fills r) : scr.Retains scr' := by
  cases receive_learns h with
  | unchanged => exact .refl scr
  | cell hl hf => exact retains_setListing hl hf.postsToShow
  | otherInfo hl | profileInfo hl => exact congrArg PostListing.postsToShow hl
  | menu | commentUser => exact rfl
  | deniedPost hl | deniedComment hl =>
    rw [Retains, RowList.items_removeAt hl]
    exact List.eraseIdx_sublist ..
  | uploadSet | signUp | logIn => exact rfl
  -- the loads
  | _ => exact absurd trivial hk

/-- The screen lists nothing. -/
def Blank : Screen → Prop
  | .home s => s.listing.postsToShow.items = []
  | .otherProfile s => s.listing.postsToShow.items = []
  | .saved s => s.listing.postsToShow.items = []
  | .userProfile s => s.listing.postsToShow.items = []
  | .comments s => s.commentsToShow.items = []
  | .moderationPosts l => l.items = []
  | .moderationComments l => l.items = []
  | _ => True

theorem Created.blank (h : scr.Created) : scr.Blank := by
  cases h with
  | loaded h => cases h <;> trivial
  | home => rfl
  | _ => trivial

theorem Retains.blank (h : scr.Retains scr') (hb : scr.Blank) : scr'.Blank := by
  cases scr <;> cases scr' <;> cases h.kind
  case moderationPosts | moderationComments =>
    have hsub := List.Sublist.length_le h
    rw [Blank] at hb
    rw [hb] at hsub
    exact List.eq_nil_of_length_eq_zero (Nat.le_zero.1 hsub)
  case home | otherProfile | saved | userProfile | comments =>
    exact (congrArg RowList.items h).trans hb
  all_goals trivial

/-- The screen lists the documents of an answer: all of them, those that a moderator has not decided
on, or, on a profile, all after what it listed before. -/
def Current (ds : List Document) : Screen → Prop
  | .home s => decodeAll AEPost.ofDocument ds = .ok s.listing.postsToShow.items
  | .otherProfile s => ∃ old posts, decodeAll AEPost.ofDocument ds = .ok posts ∧
    s.listing.postsToShow.items = old ++ posts
  | .userProfile s => ∃ old posts, decodeAll AEPost.ofDocument ds = .ok posts ∧
    s.listing.postsToShow.items = old ++ posts
  | .comments s => decodeAll (Comment.ofDocument true) ds = .ok s.commentsToShow.items
  | .moderationPosts l =>
    ∃ posts, decodeAll AEPost.ofDocument ds = .ok posts ∧ l.items.Sublist posts
  | .moderationComments l =>
    ∃ comments, decodeAll (Comment.ofDocument false) ds = .ok comments ∧ l.items.Sublist comments
  | _ => False

theorem Shows.current {ds : List Document} (h : scr.Shows ds scr') (h' : scr'.Retains scr'') :
    scr''.Current ds := by
  cases scr <;> cases scr' <;> (try exact absurd h id) <;> cases scr'' <;> cases h'.kind
  case home | comments => exact h.trans (congrArg (fun l => Except.ok (RowList.items l)) h').symm
  case otherProfile | userProfile =>
    obtain ⟨posts, hposts, hitems⟩ := h
    exact ⟨_, posts, hposts, (congrArg RowList.items h').trans hitems⟩
  case moderationPosts | moderationComments => exact ⟨_, h, h'⟩

end Screen

namespace System

variable {ι : Type} [DecidableEq ι] {s t : System ι} {c : ι} {k : ℕ} {n : Node}

/-- The event delivers an answer that fills the list of screen `k` of device `c`. -/
def Fills (s : System ι) (c : ι) (k : ℕ) : Event ι → Prop
  | .deliver i _ => ∃ f kb r, s.net[i]? = some f ∧ f.client = c ∧ f.node = k ∧
    f.request.callback = some kb ∧ f.reply = some r ∧ kb.Fills r
  | _ => False

omit [DecidableEq ι] in
theorem Turns.retains {e : Event ι} {scr scr' : Screen} (h : s.Turns e c k scr scr')
    (he : ¬ s.Fills c k e) : scr.Retains scr' := by
  cases h with
  | stays h =>
    rw [h]
    exact .refl scr
  | acts he h => exact Screen.act_retains h
  | hears hev hi hc hk halive hfresh hkb hr h =>
    refine Screen.receive_retains h fun hfills => he ?_
    rw [hev]
    exact ⟨_, _, _, hi, hc, hk, hkb, hr, hfills⟩

/-- Without a successful answer to a load of it, a screen lists what it did, or nothing if it is
new. -/
theorem lists_of_quiet {es : List (Event ι)}
    (hrun : (machine ι).Steps (fun s e => ¬ s.Fills c k e) s es t) (hn : t.At c k n) :
    (∃ m, s.At c k m ∧ m.screen.Retains n.screen) ∨ (∀ m, ¬ s.At c k m) ∧ n.screen.Blank := by
  induction hrun generalizing n with
  | nil => exact .inl ⟨n, hn, .refl _⟩
  | snoc hrun hquiet hstep ih =>
    rcases screen_of_step hstep hn with hnew | ⟨m, hm, hturns⟩
    · exact .inr ⟨(hnew.of_extends (extends_of_steps hrun)).1, hnew.2.blank⟩
    · have hretains := hturns.retains hquiet
      rcases ih hm with ⟨m₀, hm₀, hkept⟩ | ⟨hno, hblank⟩
      · exact .inl ⟨m₀, hm₀, hkept.trans hretains⟩
      · exact .inr ⟨hno, hretains.blank hblank⟩

/-- A screen that was there lists what it did. -/
theorem retains_of_quiet {es : List (Event ι)}
    (hrun : (machine ι).Steps (fun s e => ¬ s.Fills c k e) s es t) (hn : s.At c k n) :
    ∃ m, t.At c k m ∧ n.screen.Retains m.screen := by
  obtain ⟨m, hm, -⟩ := (extends_of_steps hrun).nodes c k n hn
  rcases lists_of_quiet hrun hm with ⟨n', hn', hretains⟩ | ⟨hno, -⟩
  · cases Option.some.inj (hn'.symm.trans hn)
    exact ⟨m, hm, hretains⟩
  · exact absurd hn (hno n)

/-- A home screen that lists a post is not blank. -/
theorem not_blank_of_ids {scr : Screen} {id : String}
    (h : (scr.listing.any fun l => l.postsToShow.items.map AEPost.id = [id]) = true) :
    ¬ scr.Blank := by
  intro hb
  cases scr <;> simp only [Screen.listing, Option.any_some, Option.any_none, decide_eq_true_eq,
    Bool.false_eq_true] at h <;> rw [Screen.Blank] at hb <;> simp [hb] at h

/-- The event happens while the backend is out of reach: calls are served with failures only. -/
def Offline : Event ι → Prop
  | .serve _ (.failure _) => True
  | .serve _ _ | .setMod _ _ => False
  | _ => True

instance (e : Event ι) : Decidable (Offline e) := by
  unfold Offline
  split <;> infer_instance

omit [DecidableEq ι] in
theorem Offline.failure {i : ℕ} {a : Answer} (h : Offline (.serve i a : Event ι)) :
    ∃ error, a = .failure error := by
  cases a with
  | failure error => exact ⟨error, rfl⟩
  | _ => exact h.elim

/-- What is still to be delivered are failures. -/
def OnlyFailures (s : System ι) : Prop :=
  ∀ f ∈ s.net, f.delivered = false → ∀ r, f.reply = some r → r.Fails

omit [DecidableEq ι] in
/-- A call that is served with a failure fails, and leaves the backend as it is. -/
theorem Served.fails {req : Request} {error : String} {r : Reply}
    (h : s.Served req (.failure error) t r) : t = s ∧ r.Fails := by
  generalize ha : Answer.failure error = a at h
  cases h with
  | failed e hr => rcases hr with rfl | rfl | rfl | rfl <;> exact ⟨rfl, trivial⟩
  | _ => cases ha

/-- Without the backend, failures are all there is to deliver. -/
theorem OnlyFailures.step (h : s.OnlyFailures) {e : Event ι} (he : Offline e)
    (hs : s.step e = some t) : t.OnlyFailures := by
  intro f hf hd r hr
  rcases answered_cases hs hf hr with ⟨f₀, hf₀, hgrows, hr₀⟩ | ⟨i, a, u, rfl, hserved, -⟩
  · refine h f₀ hf₀ ?_ r hr₀
    by_contra hdone
    rw [hgrows.delivered (by simpa using hdone)] at hd
    cases hd
  · obtain ⟨error, rfl⟩ := he.failure
    exact hserved.fails.2

theorem sameBackend_of_offline {e : Event ι} (he : Offline e) (hs : s.step e = some t) :
    s.SameBackend t := by
  cases e with
  | serve i a =>
    obtain ⟨error, rfl⟩ := he.failure
    obtain ⟨-, f, u, r, -, -, hserved, hsame, -⟩ := serve_mem hs
    obtain ⟨rfl, -⟩ := hserved.fails
    exact ⟨hsame.store.symm, hsame.accounts.symm, hsame.objects.symm⟩
  | setMod uid mod => exact he.elim
  | _ => exact step_sameBackend hs (by simp) (by simp)

theorem OnlyFailures.not_fills (h : s.OnlyFailures) {e : Event ι} (hs : s.step e = some t) (c : ι)
    (k : ℕ) : ¬ s.Fills c k e := by
  cases e with
  | deliver i date =>
    rintro ⟨f, kb, r, hi, -, -, -, hr, hfills⟩
    obtain ⟨f', r', hi', hr', hd, -⟩ := deliver_cases hs
    cases hi.symm.trans hi'
    exact Callback.not_fills (h f (List.mem_of_getElem? hi) hd r hr) kb hfills
  | _ => exact id

/-- Nobody is signed in by a failure. -/
theorem OnlyFailures.session (h : s.OnlyFailures) {e : Event ι} (he : Offline e)
    (hs : s.step e = some t) (c : ι) :
    (t.clients c).currentUser = (s.clients c).currentUser ∨ (t.clients c).currentUser = none := by
  rw [session_of_step hs c]
  cases e with
  | launch c₀ => exact .inl rfl
  | act c₀ k a env =>
    cases hact : s.registryAct (.act c₀ k a env) with
    | none => exact .inl rfl
    | some r =>
      obtain ⟨n, -, hn⟩ := Option.bind_eq_some_iff.1 hact
      split_ifs at hn
      cases hn
      simp only [Option.elim_some, Registry.sessionAfter]
      split_ifs
      · exact .inr rfl
      · exact .inl rfl
  | serve i a =>
    obtain ⟨error, rfl⟩ := he.failure
    exact .inl rfl
  | deliver i date =>
    obtain ⟨f, r, hi, hr, hd, -⟩ := deliver_cases hs
    have hfails := h f (List.mem_of_getElem? hi) hd r hr
    have hnone : r.signedIn = none := by
      unfold Reply.signedIn
      split
      · exact hfails.elim
      · rfl
    left
    simp only [registryAct, hi, Option.bind_some, hr, hnone, Option.map_none, ite_self,
      Option.elim_none]
  | setMod uid mod => exact he.elim

/-- **Without the backend** everything stays: nothing is written, the screens keep what they list,
new ones list nothing, and nobody is signed in. -/
theorem kept_offline (h : s.OnlyFailures) {es : List (Event ι)}
    (hrun : (machine ι).Steps (fun _ e => Offline e) s es t) :
    s.SameBackend t ∧
      (∀ c k n, s.At c k n → ∃ m, t.At c k m ∧ n.screen.Retains m.screen) ∧
      (∀ c k m, t.At c k m → (∀ n, ¬ s.At c k n) → m.screen.Blank) ∧
      ∀ c, (t.clients c).currentUser = (s.clients c).currentUser ∨
        (t.clients c).currentUser = none := by
  have hquiet : ∀ c k, (machine ι).Steps (fun s e => ¬ s.Fills c k e) s es t := fun c k =>
    hrun.congr h fun u e u' hu hs he => ⟨hu.not_fills hs c k, hu.step he hs⟩
  refine ⟨?_, fun c k n hn => retains_of_quiet (hquiet c k) hn, fun c k m hm hno => ?_, fun c => ?_⟩
  · clear hquiet
    induction hrun with
    | nil => exact .refl s
    | snoc _ he hs ih => exact ih.trans (sameBackend_of_offline he hs)
  · rcases lists_of_quiet (hquiet c k) hm with ⟨n, hn, -⟩ | ⟨-, hblank⟩
    · exact absurd hn (hno n)
    · exact hblank
  · clear hquiet
    suffices hboth : t.OnlyFailures ∧ ((t.clients c).currentUser = (s.clients c).currentUser ∨
        (t.clients c).currentUser = none) from hboth.2
    induction hrun with
    | nil => exact ⟨h, .inl rfl⟩
    | @snoc u v es e _ he hs ih =>
      refine ⟨ih.1.step he hs, ?_⟩
      rcases ih.1.session he hs c with hsame | hout
      · rw [hsame]
        exact ih.2
      · exact .inr hout

/-- Ann's post is on her feed when the network goes; she refreshes. -/
theorem kept_offline_refresh : ∃ (s t : System ℕ) (n m : Node), s.SameBackend t ∧ s.At 0 3 n ∧
    (n.screen.listing.any fun l => l.postsToShow.items.map AEPost.id = ["post"]) = true ∧
      t.At 0 3 m ∧ n.screen.Retains m.screen := by
  obtain ⟨s, hs, hp⟩ := (machine ℕ).exists_of_run (start annMoAndMax)
    (approvedPostEvents ++ [.deliver 3 0, .deliver 8 0])
    (fun s => (s.net.all fun f => f.delivered || f.reply.isNone) &&
      (((s.clients 0).nodes[3]?.any fun n => n.screen.listing.any fun l =>
        l.postsToShow.items.map AEPost.id = ["post"]) &&
          ((machine ℕ).runWhile (fun _ e => decide (Offline e)) s
            [.act 0 3 .refresh {}, .serve 10 (.failure "offline"), .deliver 10 0]).any
              fun _ => true))
    (by decide +kernel)
  rw [Bool.and_eq_true, Bool.and_eq_true, List.all_eq_true] at hp
  obtain ⟨hdone, hn, hrun⟩ := hp
  obtain ⟨n, hn, hids⟩ := (Option.any_eq_true _ _).1 hn
  obtain ⟨t, ht, -⟩ := (machine ℕ).exists_of_runWhile _ (fun _ _ => of_decide_eq_true) s _ _ hrun
  have hfail : s.OnlyFailures := by
    intro f hf hd r hr
    have hall := hdone f hf
    rw [hd, hr] at hall
    cases hall
  obtain ⟨hsame, hkept, -⟩ := kept_offline hfail ht
  obtain ⟨m, hm, hretains⟩ := hkept 0 3 n hn
  exact ⟨s, t, n, m, hsame, hn, hids, hm, hretains⟩

end System

end ArtsExplorer
