import ArtsExplorer.App.CurrentUser
import ArtsExplorer.System.Start

/-!
# Log-outs and pending work

After a log-out the screens of the session stay alive behind the initial screen, with their calls in
flight and their tables. The user cannot reach them any more, so no action unwraps the signed-in
user there; but their cells do, in two places that no user leads to: when the user document of a
post's author arrives, and when a cell is taken from the reuse pool (`Unattended`). These are the
only steps that end the process so (`logOut_safe_iff`).
-/

namespace ArtsExplorer

open Foundations

namespace System

variable {ι : Type} [DecidableEq ι] {s s' t : System ι} {c c' : ι} {k : ℕ} {env : Env}

/-! ## Where a process ends -/

/-- The step from `s` to `s'` ends the process of device `c` by the fault `f`. -/
structure Ends {ι : Type} (s s' : System ι) (c : ι) (f : Fault) : Prop where
  running : (s.clients c).running = true
  ended : (s'.clients c).running = false
  fault : (s'.clients c).fault = some f

theorem clients_enterInitial_of_ne (h : c' ≠ c) : (s.enterInitial c).clients c' = s.clients c' := by
  unfold enterInitial
  split_ifs
  · rw [clients_modify, if_neg h]
  · rw [clients_enterHome, if_neg h, clients_modify, if_neg h]

theorem clients_performOne_of_ne (h : c' ≠ c) (e : Effect) :
    (s.performOne c k env e).clients c' = s.clients c' := by
  cases e <;> simp only [performOne]
  case segue d =>
    unfold openScreen
    split
    · rw [crash, clients_modify, if_neg h]
    · rw [clients_sendAll, clients_modify, if_neg h]
  case goToHome =>
    split_ifs
    · rw [clients_enterHome, if_neg h]
    · rfl
  case presentInitial => exact clients_enterInitial_of_ne h
  case request r => rfl
  all_goals rw [clients_modify, if_neg h]

theorem clients_handle_of_ne (h : c' ≠ c) (r : Except Fault (After Screen)) :
    (s.handle c k env r).clients c' = s.clients c' := by
  cases r with
  | error f =>
    rw [handle, crash]
    rw [clients_modify, if_neg h]
  | ok a =>
    refine perform_induct (P := fun t => t.clients c' = s.clients c') _ c k ?_ fun t e _ ht => ?_
    · rw [clients_modify, if_neg h]
    · rw [clients_performOne_of_ne h, ht]

theorem running_enterInitial : ((s.enterInitial c).clients c).running = (s.clients c).running := by
  unfold enterInitial
  split_ifs
  · rw [clients_modify, if_pos rfl]
    rfl
  · rw [clients_enterHome, if_pos rfl, clients_modify, if_pos rfl]
    rfl

/-- An effect ends the process if it is a segue to a screen that fails to load. -/
theorem running_performOne (env : Env) (e : Effect) :
    ((s.performOne c k env e).clients c).running = (s.clients c).running ∨
      ∃ d f, e = .segue d ∧
        Screen.load { env with currentUser := (s.clients c).currentUser } d = .error f := by
  cases e <;> simp only [performOne]
  case segue d =>
    cases hload : Screen.load { env with currentUser := (s.clients c).currentUser } d with
    | error f => exact .inr ⟨d, f, rfl, hload⟩
    | ok a =>
      refine .inl ?_
      simp only [openScreen, hload, clients_sendAll, clients_modify, if_pos]
      rfl
  case goToHome =>
    split_ifs
    · rw [clients_enterHome, if_pos rfl]
      exact .inl rfl
    · exact .inl rfl
  case presentInitial => exact .inl running_enterInitial
  case request r => exact .inl rfl
  all_goals
    rw [clients_modify, if_pos rfl]
    exact .inl rfl

theorem running_perform (env : Env) {es : List Effect} (ht : Tidy es) :
    ((perform env s c k es).clients c).running = (s.clients c).running ∨
      ∃ d f, .segue d ∈ es ∧
        Screen.load { env with currentUser := (s.clients c).currentUser } d = .error f := by
  cases ht with
  | quiet hes =>
    rw [(perform_quiet env hes).client]
    exact .inl rfl
  | @last qs e hqs he =>
    have hq := perform_quiet (s := s) (c := c) (k := k) env hqs
    have hlast := running_performOne (s := perform env s c k qs) (c := c) (k := k) env e
    rw [hq.client] at hlast
    rw [perform_append]
    rcases hlast with hrun | ⟨d, f, rfl, hload⟩
    · exact .inl hrun
    · exact .inr ⟨d, f, List.mem_append_right _ List.mem_cons_self, hload⟩
  | logOut =>
    refine .inl (running_enterInitial.trans ?_)
    rw [performOne, clients_modify, if_pos rfl]

/-- A handler ends the process where it fails, or where it leads to a screen that fails to load. -/
theorem Ends.handle {r : Except Fault (After Screen)} {f : Fault}
    (h : s.Ends (s.handle c k env r) c f) (htidy : ∀ a, r = .ok a → Tidy a.2) :
    r = .error f ∨ ∃ a d f, r = .ok a ∧ .segue d ∈ a.2 ∧
      Screen.load { env with currentUser := (s.clients c).currentUser } d = .error f := by
  cases r with
  | error f' =>
    have hf := h.fault
    rw [System.handle, crash, clients_modify, if_pos rfl] at hf
    cases hf
    exact .inl rfl
  | ok a =>
    have hset : ((s.modify c fun cl => cl.setScreen k a.1).clients c).running = true := by
      rw [clients_modify, if_pos rfl]
      exact h.running
    rcases running_perform (s := s.modify c fun cl => cl.setScreen k a.1) (c := c) (k := k) env
      (htidy a rfl) with hrun | ⟨d, f', hd, hload⟩
    · have hended := h.ended
      rw [System.handle, hrun, hset] at hended
      cases hended
    · rw [clients_modify, if_pos rfl] at hload
      exact .inr ⟨a, d, f', rfl, hd, hload⟩

/-! ## The law -/

/-- With nobody signed in on device `c`, a cell unwraps the signed-in user: it is taken from the
reuse pool, or the user document with the avatar for it arrives. -/
def Unattended {ι : Type} (s : System ι) (c : ι) (e : Event ι) : Prop :=
  (s.clients c).currentUser = none ∧
    ((∃ k row j env, e = .act c k (.table (.cellForRowAt row (some j))) env) ∨
      ∃ i date f j d avatarID n l cell, e = .deliver i date ∧ s.net[i]? = some f ∧ f.client = c ∧
        s.Alive f ∧ f.request.callback = some (.cellAvatar j) ∧
          f.reply = some (.document (some d)) ∧
        d "avatarID" = some (.string avatarID) ∧ s.At c f.node n ∧ n.screen.listing = some l ∧
        l.cells[j]? = some cell)

/-- The session discipline of device `c`: it is in front of a tab bar only with somebody signed
in. -/
def Guarded {ι : Type} (s : System ι) (c : ι) : Prop :=
  ∀ c', (s.clients c').Nav False (c' = c)

theorem guarded_of_signedIn (h : (machine ι).Reachable s) (hu : (s.clients c).currentUser ≠ none) :
    s.Guarded c := by
  intro c'
  have hnav := reachable_nav (fun _ => False) (fun _ => False)
    (h.mono fun _ _ _ _ => ⟨False.elim, False.elim⟩) c'
  refine ⟨hnav.toLayout, hnav.isEntry, hnav.top, hnav.user, ?_⟩
  rintro rfl _ _ _ _ _
  exact hu

theorem Guarded.step (h : s.Guarded c) {e : Event ι} (hs : s.step e = some s')
    (hf : ¬ s.FailedSignUp c e) : s'.Guarded c := by
  intro c'
  refine step_nav h hs (fun _ => False.elim) (fun c' hc => ?_) c'
  rw [hc]
  exact hf

omit [DecidableEq ι] in
/-- A screen behind the tab bar that the user is on has a user. -/
theorem Guarded.currentUser_ne_none (h : s.Guarded c) {n : Node} (hn : s.At c k n)
    (hc : n.container = (s.clients c).front) (ht : (s.clients c).top = none) :
    (s.clients c).currentUser ≠ none := (h c).signedIn rfl k n hn hc ht

/-- An action that ends the process by an unwrapped user is the reuse of a cell. -/
theorem Guarded.act (h : s.Guarded c) {a : Action} (hs : s.act c k a env = some s')
    (hend : s.Ends s' c .nilUser) :
    (s.clients c).currentUser = none ∧ ∃ row j, a = .table (.cellForRowAt row (some j)) := by
  obtain ⟨n, r, hn, -, hr, -, hact, rfl⟩ := act_cases hs
  have hdraw : (s.draw a env).Ends ((s.draw a env).handle c k (s.seenBy c env) r) c .nilUser :=
    ⟨by rw [clients_draw]; exact hend.running, hend.ended, hend.fault⟩
  have htidy : ∀ x, r = .ok x → Tidy x.2 := by
    rintro x rfl
    exact (Screen.act_spec hact).2.1
  rcases hdraw.handle htidy with rfl | ⟨a', d, f, rfl, hd, hload⟩
  · obtain ⟨hu, ⟨hby, hinner⟩ | hreuse⟩ := Screen.act_nilUser hact
    · have htop := ((h c).reaches hn (hr hby)).2 hinner
      exact absurd hu (h.currentUser_ne_none hn (hr hby).1 htop)
    · exact ⟨hu, hreuse⟩
  · -- a segue is from a screen in front
    rw [clients_draw] at hload
    obtain ⟨hu, hkind⟩ := Screen.load_error hload
    have hok := navOK_of_emits (h c) hn hr ((Screen.act_spec hact).2.2 _ hd)
    have htop : (s.clients c).top = none := by
      by_contra hne
      rw [hok.1.2 hne] at hkind
      cases hkind
    obtain ⟨m, hm, hc⟩ := hok.2
    exact absurd hu (h.currentUser_ne_none hm hc htop)

/-- An answer that ends the process by an unwrapped user is the document with an avatar. -/
theorem deliver_nilUser {i date : ℕ} (hs : s.deliver i date = some s')
    (hend : s.Ends s' c .nilUser) : s.Unattended c (.deliver i date) := by
  obtain ⟨f, r, hi, hrep, -, ⟨-, rfl⟩ | ⟨ha, t, rfl, hs'⟩⟩ := deliver_cases hs
  · have := hend.running.symm.trans hend.ended
    cases this
  have hrunning : ∀ c', (((s.mark i f).signIn f.client r).clients c').running =
      (s.clients c').running := by
    intro c'
    unfold signIn
    split
    · rw [clients_modify]
      split_ifs with hc
      · rw [hc]
        rfl
      · rfl
    · rfl
  rcases hs' with ⟨rfl, -⟩ | ⟨k, n, res, hk, hn, hres, rfl⟩
  · have := hend.ended
    rw [hrunning, hend.running] at this
    cases this
  by_cases hc : c = f.client
  · subst hc
    have hend' : ((s.mark i f).signIn f.client r).Ends
      (((s.mark i f).signIn f.client r).handle f.client
        f.node (((s.mark i f).signIn f.client r).seenBy f.client { date := date }) res) f.client
          .nilUser := ⟨(hrunning _).trans hend.running, hend.ended, hend.fault⟩
    have hans : ∀ x, res = .ok x → Tidy x.2 ∧ ∀ d, .segue d ∉ x.2 := by
      rintro x rfl
      obtain ⟨ht, hem⟩ := Screen.receive_answers hres
      refine ⟨ht, fun d hd => ?_⟩
      have hsegue := hem _ hd
      obtain ⟨container, opener, user, screen⟩ := n
      cases hsegue
    rcases hend'.handle fun x hx => (hans x hx).1 with rfl | ⟨a, d, f', rfl, hd, -⟩
    · obtain ⟨hu, j, d, avatarID, l, cell, rfl, rfl, hd, hl, hcell⟩ :=
        Screen.receive_nilUser_iff.1 hres
      exact ⟨hu, .inr ⟨i, date, f, j, d, avatarID, n, l, cell, rfl, hi, rfl, ha, hk, hrep,
        hd, hn, hl,
        hcell⟩⟩
    · exact absurd hd ((hans a rfl).2 d)
  · have := hend.ended
    rw [clients_handle_of_ne hc, hrunning, hend.running] at this
    cases this

/-- **A step ends the process by an unwrapped user** if and only if it is unattended. -/
theorem ends_iff_unattended (h : s.Guarded c) {e : Event ι} (hs : s.step e = some s') :
    s.Ends s' c .nilUser ↔ s.Unattended c e := by
  constructor
  · intro hend
    have hsame : s'.clients c ≠ s.clients c := by
      intro heq
      have hended := hend.ended
      rw [heq, hend.running] at hended
      cases hended
    cases e with
    | launch c' =>
      cases hs
      have hended := hend.ended
      by_cases hc : c = c'
      · subst hc
        rw [launch, running_enterInitial, clients_modify, if_pos rfl] at hended
        cases hended
      · exact absurd (by rw [launch, clients_enterInitial_of_ne hc, clients_modify, if_neg hc])
          hsame
    | act c' k a env =>
      by_cases hc : c = c'
      · subst hc
        obtain ⟨hu, row, j, rfl⟩ := h.act hs hend
        exact ⟨hu, .inl ⟨k, row, j, env, rfl⟩⟩
      · obtain ⟨n, r, -, -, -, -, -, rfl⟩ := act_cases hs
        exact absurd (by rw [clients_handle_of_ne hc, clients_draw]) hsame
    | serve i a =>
      obtain ⟨f, t, r, -, -, hserved, net, rfl, -⟩ := serve_cases hs
      exact absurd (congrFun hserved.frame.1 c) hsame
    | deliver i date => exact deliver_nilUser hs hend
    | setMod uid mod =>
      cases hs
      exact absurd rfl hsame
  · rintro ⟨hu, ⟨k, row, j, env, rfl⟩ |
      ⟨i, date, f, j, d, avatarID, n, l, cell, rfl, hi, rfl, ha, hk,
      hrep, hd, hn, hl, hcell⟩⟩
    · obtain ⟨n, r, hn, hrun, -, -, hact, rfl⟩ := act_cases hs
      rw [Screen.reuse_nilUser hu hact, handle, crash]
      exact ⟨hrun, by rw [clients_modify, if_pos rfl], by rw [clients_modify, if_pos rfl]⟩
    · obtain ⟨f', r, hi', hrep', -, ⟨hdead, -⟩ | ⟨-, t, rfl, hs'⟩⟩ := deliver_cases hs
      all_goals cases hi.symm.trans hi'
      · exact absurd ha hdead
      cases hrep.symm.trans hrep'
      have hreceive : ∀ env : Env, env.currentUser = none →
          n.screen.receive env (.cellAvatar j) (.document (some d)) = some (.error .nilUser) :=
        fun _ hu => Screen.receive_nilUser_iff.2 ⟨hu, j, d, avatarID, l, cell, rfl, rfl, hd,
          hl, hcell⟩
      rcases hs' with ⟨-, hno⟩ | ⟨kb, n', res, hk', hn', hres, rfl⟩
      · cases (hno _ n hk hn).symm.trans (hreceive _ hu)
      · cases hk.symm.trans hk'
        cases hn.symm.trans hn'
        cases (hreceive _ hu).symm.trans hres
        rw [handle, crash]
        exact ⟨ha.1, by rw [clients_modify, if_pos rfl], by rw [clients_modify, if_pos rfl]⟩

/-- **Log-outs and pending work.** In a session that began with somebody signed in on device `c`,
and in the runs in which no sign-up fails on it, no step ends its process by an unwrapped user if
and only if no step is unattended. -/
theorem logOut_safe_iff {s₁ : System ι} (h : (machine ι).Reachable s₁)
    (hu : (s₁.clients c).currentUser ≠ none) (es : List (Event ι)) :
    (machine ι).Steps (fun s e => ¬ s.FailedSignUp c e ∧
        ∀ s', s.step e = some s' → ¬ s.Ends s' c .nilUser) s₁ es s ↔
      (machine ι).Steps (fun s e => ¬ s.FailedSignUp c e ∧ ¬ s.Unattended c e) s₁ es s := by
  have hg := guarded_of_signedIn h hu
  constructor
  · intro hrun
    refine hrun.congr (I := fun s => s.Guarded c) hg fun s e s' hi hs ⟨hf, hsafe⟩ =>
      ⟨⟨hf, ?_⟩, hi.step hs hf⟩
    exact fun hun => hsafe s' hs ((ends_iff_unattended hi hs).2 hun)
  · intro hrun
    refine hrun.congr (I := fun s => s.Guarded c) hg fun s e s' hi hs ⟨hf, hsafe⟩ =>
      ⟨⟨hf, ?_⟩, hi.step hs hf⟩
    exact fun s'' hs'' hend => hsafe ((ends_iff_unattended hi hs'').1 hend)

/-! ## Two log-outs -/

/-- The event delivers no failure of Auth. -/
def deliversNoFailure {ι : Type} (s : System ι) : Event ι → Bool
  | .deliver i _ =>
    match s.net[i]? with
    | some f =>
      match f.reply with
      | some (.auth (.error _)) => false
      | _ => true
    | none => true
  | _ => true

omit [DecidableEq ι] in
theorem not_failedSignUp (s : System ι) (e : Event ι) (h : s.deliversNoFailure e = true) (c : ι) :
    ¬ s.FailedSignUp c e := by
  rintro ⟨i, date, f, err, nameText, n, screen, rfl, hi, -, hrep, -⟩
  simp [deliversNoFailure, hi, hrep] at h

/-- The event delivers no failure, and somebody is signed in. -/
def isAttended (s : System Unit) (e : Event Unit) : Bool :=
  s.deliversNoFailure e && (s.clients ()).currentUser.isSome

theorem not_unattended (s : System Unit) (e : Event Unit) (h : s.isAttended e = true) :
    ¬ s.FailedSignUp () e ∧ ¬ s.Unattended () e := by
  rw [isAttended, Bool.and_eq_true] at h
  refine ⟨not_failedSignUp s e h.1 (), fun hun => ?_⟩
  rw [hun.1] at h
  cases h.2

/-- Ann is signed in, on the home screen. -/
def signedInAnn (s : System Unit) : Bool := (s.clients ()).currentUser == some "ann"

theorem exists_signedInAnn (p : System Unit → Bool)
    (h : (((machine Unit).run (start annAndBob) (logInEvents () 0 "ann@cis.edu.hk" "pass")).any
      fun s => signedInAnn s && p s) = true) :
    ∃ s₁, (machine Unit).Reachable s₁ ∧ (s₁.clients ()).currentUser ≠ none ∧ p s₁ = true := by
  obtain ⟨s₁, hs₁, hp⟩ := (machine Unit).exists_of_run (start annAndBob) _ _ h
  rw [Bool.and_eq_true, signedInAnn, beq_iff_eq] at hp
  exact ⟨s₁, hs₁.reachable (reachable_start _), by simp [hp.1], hp.2⟩

/-- A log-out with no cell on any screen. -/
theorem logOut_safe_quiet :
    ∃ s₁ s : System Unit, (s₁.clients ()).currentUser ≠ none ∧ (s.clients ()).currentUser = none ∧
      (machine Unit).Steps (fun s e => ¬ s.FailedSignUp () e ∧
        ∀ s', s.step e = some s' → ¬ s.Ends s' () .nilUser) s₁ (logOutEvents () 2 3) s := by
  obtain ⟨s₁, hs₁, hu, hp⟩ := exists_signedInAnn (fun s =>
    ((machine Unit).runWhile isAttended s (logOutEvents () 2 3)).any fun s =>
      (s.clients ()).currentUser.isNone) (by decide +kernel)
  obtain ⟨s, hs, hnone⟩ := (machine Unit).exists_of_runWhile _ not_unattended s₁ _ _ hp
  exact ⟨s₁, s, hu, Option.isNone_iff_eq_none.1 hnone, (logOut_safe_iff hs₁ hu _).2 hs⟩

/-- Ann uploads a post, and logs out when her profile has shown it and the cell still waits for her
avatar, call 6, which is then read. -/
def pendingAvatar : List (Event Unit) :=
  [.act () 2 .uploadTab {}] ++ uploadEvents () 2 4 "post" "Sketch" 7 ++
    [.act () 2 .profileTab {}] ++
  answerEvents 4 ++ [.act () 5 (.table (.cellForRowAt 0 none)) {}] ++ logOutEvents () 7 3 ++
  [.serve 6 .success]

/-- The next delivery of the avatar ends the process. -/
def avatarEnds (s : System Unit) : Bool :=
  (s.clients ()).running && (s.step (.deliver 6 0)).any fun s' =>
    !(s'.clients ()).running && (s'.clients ()).fault == some .nilUser

/-- **A log-out can crash pending work.** -/
theorem logOut_crash :
    ∃ (s₁ s s' : System Unit) (es : List (Event Unit)) (e : Event Unit),
      (machine Unit).Reachable s₁ ∧ (s₁.clients ()).currentUser ≠ none ∧
      (machine Unit).Steps (fun s e => ¬ s.FailedSignUp () e) s₁ es s ∧ s.step e = some s' ∧
      s.Ends s' () .nilUser := by
  obtain ⟨s₁, hs₁, hu, hp⟩ := exists_signedInAnn (fun s =>
    ((machine Unit).runWhile deliversNoFailure s pendingAvatar).any avatarEnds) (by decide +kernel)
  obtain ⟨s, hs, hends⟩ := (machine Unit).exists_of_runWhile _
    (fun s e h => not_failedSignUp s e h ()) s₁ _ _ hp
  rw [avatarEnds, Bool.and_eq_true] at hends
  obtain ⟨s', hs', hp'⟩ := (Option.any_eq_true _ _).1 hends.2
  rw [Bool.and_eq_true, beq_iff_eq] at hp'
  exact ⟨s₁, s, s', pendingAvatar, _, hs₁, hu, hs, hs', hends.1, by simpa using hp'.1, hp'.2⟩

end System

end ArtsExplorer
