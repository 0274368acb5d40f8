import ArtsExplorer.System.Start

/-!
# Who is signed in when the tab bar is shown

The main tab bar comes in front in three places: when the initial screen finds a user signed in,
after a log-in, and after a sign-up. The last does not look at the outcome: `goToHome` follows both
branches of the completion of `createUser`. So every entry is that of a signed-in user in the runs
in which no failed sign-up is answered on the sign-up screen in front, and in no others
(`entries_signedIn_iff`).
-/

namespace ArtsExplorer

open Foundations

namespace System

variable {ι : Type} [DecidableEq ι] {s s' : System ι} {c : ι} {k : ℕ} {env : Env}

/-- Somebody was signed in whenever the tab bar came in front. -/
def EntriesSignedIn {ι : Type} (s : System ι) : Prop := ∀ en ∈ s.entries, en.user ≠ none

omit [DecidableEq ι] in
theorem EntriesSignedIn.of_eq (h : s.EntriesSignedIn) (he : s'.entries = s.entries) :
    s'.EntriesSignedIn := by
  intro en hen
  exact h en (he ▸ hen)

/-! ## The places that show the tab bar -/

theorem entries_enterHome (entrance : Entrance) :
    (s.enterHome c entrance).entries =
      s.entries ++ [HomeEntry.mk c entrance (s.clients c).currentUser] := by
  rw [enterHome, sendAll_eq]
  rfl

/-- `goToHome` on the screen on top. -/
theorem entries_goToHome (env : Env) (htop : (s.clients c).top = some k) (screen : Screen) :
    (s.handle c k env (.ok (screen, [.goToHome]))).entries =
      s.entries ++ [HomeEntry.mk c (.goToHome k) (s.clients c).currentUser] := by
  have htop' : ((s.modify c fun cl => cl.setScreen k screen).clients c).top = some k := by
    rw [clients_modify, if_pos rfl]
    exact htop
  simp only [handle, perform, performOne]
  rw [if_pos htop', entries_enterHome, clients_modify, if_pos rfl]
  rfl

theorem EntriesSignedIn.enterHome (h : s.EntriesSignedIn) (entrance : Entrance)
    (hu : (s.clients c).currentUser ≠ none) : (s.enterHome c entrance).EntriesSignedIn := by
  intro en hen
  rw [entries_enterHome, List.mem_append, List.mem_singleton] at hen
  rcases hen with hen | rfl
  · exact h en hen
  · exact hu

/-- `viewDidLoad` looks at the user. -/
theorem EntriesSignedIn.enterInitial (h : s.EntriesSignedIn) :
    (s.enterInitial c).EntriesSignedIn := by
  unfold System.enterInitial
  split_ifs with hu
  · exact h.of_eq rfl
  · refine EntriesSignedIn.enterHome (s := s.modify c Client.showInitial) (h.of_eq rfl) _ ?_
    rw [clients_modify, if_pos rfl]
    exact hu

theorem EntriesSignedIn.performOne (h : s.EntriesSignedIn) {e : Effect}
    (hhome : e = .goToHome → (s.clients c).top = some k → (s.clients c).currentUser ≠ none) :
    (s.performOne c k env e).EntriesSignedIn := by
  cases e with
  | segue d =>
    simp only [System.performOne, openScreen]
    split
    · exact h.of_eq rfl
    · exact h.of_eq (by rw [sendAll_eq]; rfl)
  | goToHome =>
    simp only [System.performOne]
    split_ifs with ht
    · exact h.enterHome _ (hhome rfl ht)
    · exact h
  | presentInitial => exact h.enterInitial
  | _ => exact h.of_eq rfl

theorem EntriesSignedIn.perform (h : s.EntriesSignedIn) {es : List Effect} (ht : Tidy es)
    (hhome : .goToHome ∈ es → (s.clients c).top = some k → (s.clients c).currentUser ≠ none) :
    (perform env s c k es).EntriesSignedIn := by
  cases ht with
  | quiet hes => exact h.of_eq (perform_quiet env hes).entries
  | @last qs e hqs he =>
    have hq := perform_quiet (s := s) (c := c) (k := k) env hqs
    rw [perform_append]
    refine EntriesSignedIn.performOne (h.of_eq hq.entries) fun heq => ?_
    rw [hq.client]
    exact hhome (heq ▸ List.mem_append_right _ List.mem_cons_self)
  | logOut =>
    -- signing out records nothing, and the initial screen looks at the user
    refine EntriesSignedIn.enterInitial ?_
    exact h.of_eq rfl

theorem EntriesSignedIn.handle (h : s.EntriesSignedIn) {r : Except Fault (After Screen)}
    (hr : ∀ a, r = .ok a → Tidy a.2 ∧
      (.goToHome ∈ a.2 → (s.clients c).top = some k → (s.clients c).currentUser ≠ none)) :
    (s.handle c k env r).EntriesSignedIn := by
  cases r with
  | error f => exact h.of_eq rfl
  | ok a =>
    obtain ⟨ht, hhome⟩ := hr a rfl
    have hset : (s.modify c fun cl => cl.setScreen k a.1).EntriesSignedIn := h.of_eq rfl
    refine hset.perform ht fun hmem => ?_
    rw [clients_modify, if_pos rfl]
    exact hhome hmem

/-! ## Steps -/

theorem EntriesSignedIn.deliver (h : s.EntriesSignedIn) {i date : ℕ}
    (hs : s.deliver i date = some s') (hf : ∀ c, ¬ s.FailedSignUp c (.deliver i date)) :
    s'.EntriesSignedIn := by
  obtain ⟨f, r, hi, hrep, hd, ⟨-, rfl⟩ | ⟨ha, t, rfl, hs'⟩⟩ := deliver_cases hs
  · exact h.of_eq rfl
  have hsign : ((s.mark i f).signIn f.client r).EntriesSignedIn := by
    refine h.of_eq ?_
    unfold signIn
    split <;> rfl
  rcases hs' with ⟨rfl, -⟩ | ⟨k, n, res, hk, hn, hres, rfl⟩
  · exact hsign
  refine hsign.handle fun a hr => ?_
  subst hr
  obtain ⟨ht, hans⟩ := Screen.receive_answers hres
  refine ⟨ht, fun hmem htop => ?_⟩
  have hgo := hans _ hmem
  obtain ⟨container, opener, user, screen⟩ := n
  cases hgo with
  | signedUp nameText r =>
    cases r with
    | ok uid => simp [signIn]
    | error err =>
      intro hu
      exact hf _ ⟨i, date, f, err, nameText, _, _, rfl, hi, rfl, hrep, hk, hd, ha, htop, hu,
        hn, rfl⟩
  | signedIn uid => simp [signIn]

/-- A failed sign-up enters the tab bar with nobody signed in. -/
theorem FailedSignUp.entries {e : Event ι} (h : s.FailedSignUp c e) (hs : s.step e = some s') :
    ∃ en ∈ s'.entries, en.user = none := by
  obtain ⟨i, date, f, err, nameText, n, screen, rfl, hi, rfl, hrep, hk, hd, ha, htop, hu, hn,
    hscr⟩ := h
  have hreceive : ∀ env, n.screen.receive env (.userCreated nameText) (.auth (.error err)) =
      some (.ok (.signUp (screen.showError "There was an error creating the account."),
        [.goToHome])) := by
    intro env
    rw [hscr]
    rfl
  obtain ⟨f', r, hi', hrep', -, ⟨hdead, -⟩ | ⟨-, t, rfl, hs'⟩⟩ := deliver_cases hs
  all_goals
    cases hi.symm.trans hi'
  · exact absurd ha hdead
  cases hrep.symm.trans hrep'
  rcases hs' with ⟨-, hno⟩ | ⟨kb, n', res, hk', hn', hres, rfl⟩
  · have := hno _ n hk hn
    rw [hreceive] at this
    cases this
  cases hk.symm.trans hk'
  cases hn.symm.trans hn'
  cases (hreceive _).symm.trans hres
  refine ⟨HomeEntry.mk f.client (.goToHome f.node) none, ?_, rfl⟩
  have hentries := entries_goToHome (s := (s.mark i f).signIn f.client (.auth (.error err)))
    (((s.mark i f).signIn f.client (.auth (.error err))).seenBy f.client { date := date }) htop
    (.signUp (screen.showError "There was an error creating the account."))
  rw [hentries, List.mem_append, List.mem_singleton]
  exact .inr (by rw [← hu]; rfl)

/-- **A step enters the tab bar with somebody signed in**, unless it is a failed sign-up. -/
theorem step_entries_iff {e : Event ι} (hs : s.step e = some s') :
    s'.EntriesSignedIn ↔ s.EntriesSignedIn ∧ ∀ c, ¬ s.FailedSignUp c e := by
  constructor
  · intro h
    refine ⟨fun en hen => h en ((step_extends hs).entries en hen), fun c hf => ?_⟩
    obtain ⟨en, hen, hu⟩ := hf.entries hs
    exact h en hen hu
  · rintro ⟨h, hf⟩
    cases e with
    | launch c =>
      cases hs
      refine EntriesSignedIn.enterInitial ?_
      exact h.of_eq rfl
    | act c k a env =>
      obtain ⟨n, r, -, -, -, -, hact, rfl⟩ := act_cases hs
      have hd : (s.draw a env).EntriesSignedIn := by
        refine h.of_eq ?_
        unfold draw
        split_ifs <;> rfl
      refine hd.handle fun x hx => ?_
      subst hx
      obtain ⟨-, ht, hem⟩ := Screen.act_spec hact
      refine ⟨ht, fun hmem => ?_⟩
      -- no action goes home
      have hgo := hem _ hmem
      obtain ⟨container, opener, user, screen⟩ := n
      cases hgo with
      | table hl he =>
        generalize a.byUser = b at he
        cases he
    | serve i a =>
      obtain ⟨f, t, r, -, -, hserved, net, rfl, -⟩ := serve_cases hs
      exact h.of_eq hserved.frame.2.2.2.1
    | deliver i date => exact h.deliver hs hf
    | setMod uid mod =>
      cases hs
      exact h.of_eq rfl

/-- **The tab bar is only entered by a signed-in user** in a run if and only if no failed sign-up is
answered on the sign-up screen in front with nobody signed in. -/
theorem entries_signedIn_iff {s₀ : System ι} (h : s₀.Initial) (es : List (Event ι)) :
    (machine ι).Steps (fun _ _ => True) s₀ es s ∧ s.EntriesSignedIn ↔
      (machine ι).Steps (fun s e => ∀ c, ¬ s.FailedSignUp c e) s₀ es s := by
  refine Machine.steps_and_iff (.init h) (fun en hen => ?_) fun _ _ _ _ hs => step_entries_iff hs
  rw [h.entries] at hen
  cases hen

/-- Somebody has entered the tab bar, always signed in. -/
def EntersSignedIn {ι : Type} (s : System ι) : Bool :=
  !s.entries.isEmpty && s.entries.all fun en => en.user.isSome

theorem entries_signedIn_logIn :
    ∃ s : System Unit, s.entries ≠ [] ∧
      (machine Unit).Steps (fun s e => ∀ c, ¬ s.FailedSignUp c e) (start annAndBob)
        (logInEvents () 0 "ann@cis.edu.hk" "pass") s := by
  obtain ⟨s, hs, hp⟩ := (machine Unit).exists_of_run (start annAndBob)
    (logInEvents () 0 "ann@cis.edu.hk" "pass") EntersSignedIn (by decide +kernel)
  rw [EntersSignedIn, Bool.and_eq_true, List.all_eq_true] at hp
  refine ⟨s, by simpa using hp.1, (entries_signedIn_iff (initial_start annAndBob) _).1 ⟨hs, ?_⟩⟩
  intro en hen
  exact Option.isSome_iff_ne_none.1 (hp.2 en hen)

/-- The backend refuses Ann's sign-up. -/
def refusedSignUp : List (Event Unit) :=
  signUpEvents () "Ann" "ann@cis.edu.hk" "secret12!" ++
  [.serve 0 (.failure "The email address is already in use."), .deliver 0 0]

/-- **The tab bar can be entered with nobody signed in.** -/
theorem home_entered_signedOut :
    ∃ s : System Unit, (machine Unit).Reachable s ∧ ∃ en ∈ s.entries, en.user = none := by
  obtain ⟨s, hs, hp⟩ := (machine Unit).exists_of_run (start annAndBob) refusedSignUp
    (fun s => s.entries.any fun en => en.user.isNone) (by decide +kernel)
  obtain ⟨en, hen, hu⟩ := List.any_eq_true.1 hp
  exact ⟨s, hs.reachable (reachable_start _), en, hen, Option.isNone_iff_eq_none.1 hu⟩

end System

end ArtsExplorer
