import ArtsExplorer.Foundations.Termination
import ArtsExplorer.System.Creation

/-!
# The app comes to rest

Closures make calls of their own: an avatar is followed by a look at the saved posts, the list of
saved posts by a call for each of them, a log-in by the feed. `Callback.depth` bounds such chains.
So when the user stops, the calls in flight are worked off in whatever order they are served and
their answers delivered, with whatever outcome, and the app comes to rest (`comes_to_rest`): every
call has been answered and its answer handed over. Snapshot listeners stay registered and may be
answered again; their further answers are apart.
-/

namespace ArtsExplorer

open Foundations

/-! ## Chains of calls -/

/-- The longest chain of calls that can follow from an answer to the closure. -/
def Callback.depth : Callback → ℕ
  | .cellAvatar _ | .savedUser | .uploadUser .. | .commentUser .. | .userCreated _ | .signedIn => 1
  | _ => 0

def Request.depth (r : Request) : ℕ := (r.callback.map Callback.depth).getD 0

def Request.isListener : Request → Bool
  | .addSnapshotListener _ _ _ => true
  | _ => false

/-- The effects of a closure that can be followed by chains of `d` calls: the calls have shorter
chains. -/
def Effect.Shortens (d : ℕ) : Effect → Prop
  | .request r => r.depth < d
  | .createAlert _ _ => True
  | .goToHome => 0 < d
  | _ => False

namespace Screen

variable {env : Env} {scr scr' : Screen} {es : List Effect}

theorem OnlyAlerts.shortens (h : OnlyAlerts es) (d : ℕ) : ∀ e ∈ es, e.Shortens d := by
  intro e he
  obtain ⟨title, message, rfl⟩ := h e he
  trivial

/-- What follows from a closure with a chain. -/
theorem Answers.shortens {k : Callback} {r : Reply} {e : Effect} (h : Answers env scr k r e)
    (hk : k.depth = 1) : e.Shortens k.depth := by
  rw [hk]
  cases h <;> first | exact Nat.one_pos | trivial

/-- **Every closure shortens the chains.** -/
theorem receive_shortens {k : Callback} {r : Reply}
    (h : scr.receive env k r = some (.ok (scr', es))) : ∀ e ∈ es, e.Shortens k.depth := by
  have hans := (receive_answers h).2
  replace h := receive_cases h
  cases h
  case table h =>
    obtain ⟨l, l', -, hr, -⟩ := tableReceive_ok h
    unfold PostListing.receive at hr
    split at hr
    · exact fun e he => (hans e he).shortens rfl
    · simp only [Option.map_eq_some_iff, bind_eq_ok, pure_eq_ok, Prod.mk.injEq] at hr
      obtain ⟨_, -, _, -, -, rfl⟩ := hr
      simp
    · cases hr
  case savedUser | uploadUser | commentUser | userCreated | signedIn =>
    exact fun e he => (hans e he).shortens rfl
  all_goals
    rename_i h
    simp only [lift_eq_ok, Except.ok.injEq, Prod.mk.injEq] at h
    obtain ⟨⟨s', es'⟩, hx, -, rfl⟩ := h
  case homePosts => exact (homePostsReply_alerts hx).shortens _
  case menu => exact (menuReply_alerts hx).shortens _
  case otherInfo => exact (otherReplies_alerts.1 _ hx).shortens _
  case otherPosts => exact (otherReplies_alerts.2 _ hx).shortens _
  case savedPost => exact (savedPostReply_alerts hx).shortens _
  case profilePosts => exact (profileReplies_alerts.2 _ hx).shortens _
  case profileInfo => exact (profileReplies_alerts.1 _ hx).shortens _
  case comments => exact (commentsReply_alerts hx).shortens _
  case pendingPosts | pendingComments => exact (pendingReplies_alerts.1 _ hx).shortens _
  case deniedPost | deniedComment => exact (pendingReplies_alerts.2 _ _ hx).shortens _
  case avatarPut =>
    unfold UserProfileViewController.avatarPutReply at hx
    split at hx <;> cases hx <;> exact OnlyAlerts.shortens (by simp [OnlyAlerts]) _
  case uploadSet =>
    unfold UploadViewController.setReply at hx
    split at hx <;> cases hx <;> exact OnlyAlerts.shortens (by simp [OnlyAlerts]) _
  case uploadPut =>
    unfold UploadViewController.putReply at hx
    split at hx <;> cases hx <;> exact OnlyAlerts.shortens (by simp [OnlyAlerts]) _
  case commentSet =>
    unfold CommentsViewController.setReply at hx
    split at hx <;> cases hx <;> exact OnlyAlerts.shortens (by simp [OnlyAlerts]) _
  case userSet =>
    unfold SignUpViewController.setReply at hx
    split at hx <;> cases hx <;> exact OnlyAlerts.shortens (by simp [OnlyAlerts]) _

end Screen

/-! ## Tasks -/

/-- What is left to do about a call: to serve it and to deliver its answer. -/
def Flight.task {ι : Type} (f : Flight ι) : Option ℕ :=
  if f.reply.isNone then some (2 * f.request.depth + 1)
  else if f.delivered then none else some (2 * f.request.depth)

namespace System

variable {ι : Type} {s t : System ι} {c : ι} {k d : ℕ}

/-- The tasks of all calls in flight. -/
def tasks (s : System ι) : Multiset ℕ := s.net.filterMap Flight.task

/-- The event serves a call or delivers an answer; the answers of snapshot listeners are apart. -/
def Finishes (s : System ι) : Event ι → Prop
  | .serve i _ => ∀ f, s.net[i]? = some f → f.request.isListener = false
  | .deliver _ _ => True
  | _ => False

/-- Every call has been answered and its answer handed over, but for the registrations of snapshot
listeners. -/
def AtRest (s : System ι) : Prop :=
  ∀ f ∈ s.net, (f.reply ≠ none ∧ f.delivered = true) ∨
    (f.reply = none ∧ f.request.isListener = true)

/-- `t` has only more calls than `s`, with chains shorter than `d`. -/
def Calling (d : ℕ) (s t : System ι) : Prop :=
  ∃ new : List (Flight ι), t.net = s.net ++ new ∧ ∀ f ∈ new, f.request.depth < d

theorem Calling.refl (d : ℕ) (s : System ι) : s.Calling d s := ⟨[], by simp, by simp⟩

theorem Calling.sendAll {u : System ι} (h : s.Calling d u) {es : List Effect}
    (hes : ∀ r, .request r ∈ es → r.depth < d) : s.Calling d (u.sendAll c k es) := by
  obtain ⟨new, hnet, hnew⟩ := h
  rw [sendAll_eq]
  refine ⟨new ++ (requests es).map (u.flight c k), by rw [hnet, List.append_assoc], fun f hf => ?_⟩
  rcases List.mem_append.1 hf with hf | hf
  · exact hnew f hf
  · obtain ⟨r, hr, rfl⟩ := List.mem_map.1 hf
    exact hes r (mem_requests.1 hr)

/-- A call has the tasks of its chain. -/
theorem task_lt {f : Flight ι} (h : f.request.depth < d) {n : ℕ} (hn : n ∈ f.task) :
    n < 2 * d := by
  unfold Flight.task at hn
  split_ifs at hn
  · cases hn
    omega
  · cases hn
  · cases hn
    omega

variable [DecidableEq ι]

theorem Calling.handle {env : Env} {res : Except Fault (After Screen)}
    (hres : ∀ x, res = .ok x → ∀ e ∈ x.2, e.Shortens d) :
    s.Calling d (s.handle c k env res) := by
  cases res with
  | error x => exact .refl d s
  | ok x =>
    refine perform_induct (P := fun u => s.Calling d u) _ c k (.refl d s) fun u e he hu => ?_
    have hsmall := hres x rfl e he
    cases e with
    | request r =>
      have hsend : s.Calling d (u.sendAll c k [.request r]) := hu.sendAll fun r' hr' => by
        cases List.mem_singleton.1 hr'
        exact hsmall
      exact hsend
    | createAlert title message => exact hu
    | goToHome =>
      simp only [performOne]
      split_ifs
      · refine Calling.sendAll (u := ({ u with entries := _ } : System ι).modify c _) hu
          fun r hr => ?_
        cases List.mem_singleton.1 hr
        exact hsmall
      · exact hu
    | _ => exact hsmall.elim

omit [DecidableEq ι] in
/-- Serving a call leaves the task to deliver its answer. -/
theorem tasks_serve {i : ℕ} {a : Answer} (hs : s.serve i a = some t)
    (hC : s.Finishes (.serve i a)) :
    ∃ (n : ℕ) (rest more : Multiset ℕ), s.tasks = n ::ₘ rest ∧ t.tasks = more + rest ∧
      ∀ m ∈ more, m < n := by
  obtain ⟨f, u, r, hi, hrep, hserved, net, rfl, hnet⟩ := serve_cases hs
  have hlisten : ¬ ∃ n q k, f.request = .addSnapshotListener n q k := by
    rintro ⟨n, q, k, hreq⟩
    have hno := hC f hi
    rw [hreq] at hno
    cases hno
  obtain rfl : net = u.net.set i { f with reply := some r } :=
    hnet.resolve_right fun h => hlisten h.2
  obtain ⟨rest, hold, hnew⟩ := exists_tasks_of_set Flight.task hi { f with reply := some r }
  have htask : f.task = some (2 * f.request.depth + 1) := by simp [Flight.task, hrep]
  refine ⟨2 * f.request.depth + 1, rest, (({ f with reply := some r } : Flight ι).task.toList),
    ?_, ?_, fun m hm => ?_⟩
  · rw [tasks, hold, htask]
    rfl
  · rw [tasks, hserved.frame.2.1]
    exact hnew
  · have hm' : m ∈ ({ f with reply := some r } : Flight ι).task := by simpa using hm
    simp only [Flight.task, Option.isNone_some, Bool.false_eq_true, if_false] at hm'
    split_ifs at hm' <;> cases hm'
    omega

/-- Delivering an answer leaves the tasks of the calls that its closure makes. -/
theorem tasks_deliver {i date : ℕ} (hs : s.deliver i date = some t) :
    ∃ (n : ℕ) (rest more : Multiset ℕ), s.tasks = n ::ₘ rest ∧ t.tasks = more + rest ∧
      ∀ m ∈ more, m < n := by
  obtain ⟨f, r, hi, hrep, hdel, hcase⟩ := deliver_cases hs
  obtain ⟨rest, hold, hnew⟩ := exists_tasks_of_set Flight.task hi { f with delivered := true }
  have htask : f.task = some (2 * f.request.depth) := by simp [Flight.task, hrep, hdel]
  have hdone : ({ f with delivered := true } : Flight ι).task = none := by
    simp [Flight.task, hrep]
  rw [htask] at hold
  rw [hdone] at hnew
  have hmark : (s.mark i f).tasks = 0 + rest := hnew
  have hcalling : (s.mark i f).Calling f.request.depth t := by
    rcases hcase with ⟨-, rfl⟩ | ⟨-, u, rfl, hs'⟩
    · exact .refl _ _
    have hsign : ((s.mark i f).signIn f.client r).net = (s.mark i f).net := by
      unfold signIn
      split <;> rfl
    rcases hs' with ⟨rfl, -⟩ | ⟨k, n, res, hk, -, hres, rfl⟩
    · exact ⟨[], by rw [hsign, List.append_nil], by simp⟩
    have hdepth : f.request.depth = k.depth := by rw [Request.depth, hk]; rfl
    generalize (s.mark i f).signIn f.client r = u at hres hsign ⊢
    have hhandle : u.Calling f.request.depth
        (u.handle f.client f.node (u.seenBy f.client { date := date }) res) :=
      Calling.handle fun x hx => by
        subst hx
        rw [hdepth]
        exact Screen.receive_shortens hres
    obtain ⟨new, hnet, hsmall⟩ := hhandle
    exact ⟨new, by rw [hnet, hsign], hsmall⟩
  obtain ⟨new, hnet, hsmall⟩ := hcalling
  refine ⟨2 * f.request.depth, rest, (new.filterMap Flight.task : Multiset ℕ), ?_, ?_,
    fun m hm => ?_⟩
  · rw [tasks, hold]
    rfl
  · rw [tasks, hnet, List.filterMap_append, ← Multiset.coe_add, add_comm]
    congr 1
    exact hmark.trans (zero_add rest)
  · rw [Multiset.mem_coe, List.mem_filterMap] at hm
    obtain ⟨g, hg, hm⟩ := hm
    exact task_lt (hsmall g hg) hm

/-- **Serving and delivering works off the calls.** -/
theorem worksOff (ι : Type) [DecidableEq ι] :
    (machine ι).WorksOff Finishes (tasks : System ι → Multiset ℕ) := by
  intro s e t hC hs
  cases e with
  | serve i a => exact tasks_serve hs hC
  | deliver i date => exact tasks_deliver hs
  | _ => exact hC.elim

/-! ## Rest -/

omit [DecidableEq ι] in
/-- Every call can fail. -/
theorem evaluate_failure (s : System ι) (r : Request) (err : String) :
    ∃ x, s.evaluate r (.failure err) = some x := by
  cases r <;> exact ⟨_, rfl⟩

omit [DecidableEq ι] in
theorem exists_serve {i : ℕ} {f : Flight ι} (hi : s.net[i]? = some f) (hrep : f.reply = none)
    (err : String) : ∃ t, s.serve i (.failure err) = some t := by
  obtain ⟨⟨u, r⟩, hu⟩ := s.evaluate_failure f.request err
  simp only [serve, hi, hrep, Option.isNone_none, if_true, hu]
  split <;> exact ⟨_, rfl⟩

theorem exists_deliver {i : ℕ} {f : Flight ι} {r : Reply} (hi : s.net[i]? = some f)
    (hrep : f.reply = some r) (hdel : f.delivered = false) (date : ℕ) :
    ∃ t, s.deliver i date = some t := by
  simp only [deliver, hi, hrep, hdel, Bool.false_eq_true, if_false]
  split
  · split
    · split <;> exact ⟨_, rfl⟩
    · exact ⟨_, rfl⟩
  · exact ⟨_, rfl⟩

/-- The app is at rest where nothing is left to serve or deliver. -/
theorem atRest_iff : s.AtRest ↔ ∀ e t, s.Finishes e → s.step e ≠ some t := by
  constructor
  · intro hrest e t hC hs
    cases e with
    | serve i a =>
      obtain ⟨f, -, -, hi, hrep, -⟩ := serve_cases hs
      rcases hrest f (List.mem_of_getElem? hi) with ⟨hne, -⟩ | ⟨-, hlisten⟩
      · exact hne hrep
      · rw [hC f hi] at hlisten
        cases hlisten
    | deliver i date =>
      obtain ⟨f, r, hi, hrep, hdel, -⟩ := deliver_cases hs
      rcases hrest f (List.mem_of_getElem? hi) with ⟨-, hdone⟩ | ⟨hnone, -⟩
      · rw [hdel] at hdone
        cases hdone
      · rw [hnone] at hrep
        cases hrep
    | _ => exact hC
  · intro hstuck f hf
    obtain ⟨i, hi⟩ := List.mem_iff_getElem?.1 hf
    cases hrep : f.reply with
    | none =>
      right
      refine ⟨rfl, ?_⟩
      by_contra hlisten
      obtain ⟨t, ht⟩ := exists_serve hi hrep ""
      refine hstuck (.serve i (.failure "")) t (fun g hg => ?_) ht
      cases hi.symm.trans hg
      simpa using hlisten
    | some r =>
      left
      refine ⟨by simp, ?_⟩
      by_contra hdel
      obtain ⟨t, ht⟩ := exists_deliver hi hrep (by simpa using hdel) 0
      exact hstuck (.deliver i 0) t trivial ht

/-- **The app comes to rest** from every state, when the user stops. The calls in flight, and those
that their closures make, cannot be served and delivered for ever, whatever the order and the
outcomes; where no more can be, all answers have been handed over; and that is reached. -/
theorem comes_to_rest (s : System ι) :
    (∀ run : ℕ → System ι, run 0 = s →
      ∃ n, ¬ ∃ e, (run n).Finishes e ∧ (run n).step e = some (run (n + 1))) ∧
    (∀ es t, (machine ι).Steps Finishes s es t → (∀ e u, t.Finishes e → t.step e ≠ some u) →
      t.AtRest) ∧
    ∃ es t, (machine ι).Steps Finishes s es t ∧ t.AtRest := by
  refine ⟨fun run _ => (worksOff ι).not_forever run, fun es t _ hstuck => atRest_iff.2 hstuck, ?_⟩
  obtain ⟨es, t, hrun, hstuck⟩ := (worksOff ι).exists_rest s
  exact ⟨es, t, hrun, atRest_iff.2 hstuck⟩

end System

end ArtsExplorer
