import ArtsExplorer.Foundations.Refinement
import ArtsExplorer.Foundations.Registry
import ArtsExplorer.Sessions.SignUp
import ArtsExplorer.Sessions.Validation
import ArtsExplorer.System.Contract

/-!
# The app is a registry with a policy

Seen from its accounts and from who is signed in where, the app is a registry of accounts
(`refines_registry`), whose policy is what the sign-up screen checks: the backend itself accepts any
e-mail address and password. An account is created when the backend serves a sign-up, a device
enters a session when the answer to a sign-up or log-in is delivered to its process, and leaves it
by the log-out. So all new accounts meet the policy, and nobody is signed in without an account
(`accounts_of_run`).
-/

namespace ArtsExplorer

open Foundations

/-- The account that serving a call creates with id `uid`. -/
def Request.newAccount (uid : String) : Request → Option Account
  | .createUser email password _ => some ⟨email, password, uid⟩
  | _ => none

/-- Who is signed in by an answer. -/
def Reply.signedIn : Reply → Option String
  | .auth (.ok uid) => some uid
  | _ => none

/-- Whether an action of a screen signs the user out. -/
def Screen.signsOut (env : Env) (scr : Screen) (a : Action) : Bool :=
  match scr.act env a with
  | some (.ok (_, es)) => decide (.signOut ∈ es)
  | _ => false

/-- What the sign-up screen checks of an account. -/
structure Account.Allowed (a : Account) : Prop where
  email : SignUpViewController.validateEmail a.email = .ok true
  password : SignUpViewController.PasswordPolicy a.password

namespace System

variable {ι : Type}

/-- The registry of a system. -/
def registryOf (s : System ι) : Registry ι Account String where
  accounts := s.accounts
  session c := (s.clients c).currentUser

/-- What a step does in the registry. -/
def registryAct (s : System ι) : Event ι → Option (RegistryAct ι Account String)
  | .act c k a env => ((s.clients c).nodes[k]?).bind fun n =>
    if n.screen.signsOut (s.seenBy c env) a then some (.leave c) else none
  | .serve i (.created uid) =>
    (s.net[i]?).bind fun f => (f.request.newAccount uid).map .create
  | .deliver i _ => (s.net[i]?).bind fun f =>
    if s.Alive f then (f.reply.bind Reply.signedIn).map (.enter f.client) else none
  | _ => none

/-! ## Sessions -/

section Sessions

variable [DecidableEq ι] {s t : System ι} {c : ι} {k : ℕ} {env : Env}

/-- Only `signOut` changes who is signed in. -/
theorem session_performOne {e : Effect} (he : e ≠ .signOut) (c' : ι) :
    ((s.performOne c k env e).clients c').currentUser = (s.clients c').currentUser := by
  have hmodify : ∀ (u : System ι) (f : Client → Client),
      (∀ cl, (f cl).currentUser = cl.currentUser) →
      ((u.modify c f).clients c').currentUser = (u.clients c').currentUser := by
    intro u f hf
    rw [clients_modify]
    split_ifs with hc
    · rw [hf, hc]
    · rfl
  have hhome : ∀ (u : System ι) (entrance : Entrance),
      ((u.enterHome c entrance).clients c').currentUser = (u.clients c').currentUser := by
    intro u entrance
    rw [clients_enterHome]
    split_ifs with hc
    · rw [hc]
      rfl
    · rfl
  cases e <;> simp only [performOne]
  case request r => rfl
  case segue d =>
    unfold openScreen
    split
    · exact hmodify _ _ fun _ => rfl
    · rw [clients_sendAll]
      exact hmodify _ _ fun _ => rfl
  case goToHome =>
    split_ifs
    · exact hhome _ _
    · rfl
  case presentInitial =>
    unfold enterInitial
    split_ifs
    · exact hmodify _ _ fun _ => rfl
    · exact (hhome _ _).trans (hmodify _ _ fun _ => rfl)
  case signOut => exact absurd rfl he
  all_goals exact hmodify _ _ fun _ => rfl

theorem session_perform {es : List Effect} (hes : .signOut ∉ es) (c' : ι) :
    ((perform env s c k es).clients c').currentUser = (s.clients c').currentUser :=
  perform_induct (P := fun u => (u.clients c').currentUser = (s.clients c').currentUser) _ c k rfl
    fun _ _ he hu => (session_performOne (fun h => hes (h ▸ he)) c').trans hu

theorem session_setScreen (scr : Screen) (c' : ι) :
    ((s.modify c fun cl => cl.setScreen k scr).clients c').currentUser =
      (s.clients c').currentUser := by
  rw [clients_modify]
  split_ifs with hc
  · rw [hc]
    rfl
  · rfl

/-- A handler without a `signOut` leaves all sessions. -/
theorem session_handle {res : Except Fault (After Screen)}
    (hres : ∀ scr es, res = .ok (scr, es) → .signOut ∉ es) (c' : ι) :
    ((s.handle c k env res).clients c').currentUser = (s.clients c').currentUser := by
  cases res with
  | error x =>
    rw [handle, crash, clients_modify]
    split_ifs with hc
    · rw [hc]
    · rfl
  | ok x => exact (session_perform (hres x.1 x.2 rfl) c').trans (session_setScreen x.1 c')

/-- The log-out leaves the session of its device. -/
theorem session_logOut {scr : Screen} {es : List Effect} (ht : Tidy es) (hes : .signOut ∈ es)
    (c' : ι) : ((s.handle c k env (.ok (scr, es))).clients c').currentUser =
      if c' = c then none else (s.clients c').currentUser := by
  have hlast : es = [.signOut, .presentInitial] := by
    cases ht with
    | quiet h => cases h _ hes
    | last h he =>
      rcases List.mem_append.1 hes with hes | hes
      · cases h _ hes
      · exact absurd (List.mem_singleton.1 hes).symm he
    | logOut => rfl
  rw [hlast, handle, perform, perform, perform,
    @session_performOne ι _ _ c k env .presentInitial (by simp) c']
  simp only [performOne, clients_modify]
  split_ifs with hc
  · rfl
  · rfl

theorem signOut_notMem_receive {scr scr' : Screen} {kb : Callback} {r : Reply} {es : List Effect}
    (h : scr.receive env kb r = some (.ok (scr', es))) : .signOut ∉ es := by
  intro he
  cases (Screen.receive_answers h).2 _ he

/-- **What a step does to the sessions.** -/
theorem session_of_step {e : Event ι} (hs : s.step e = some t) (c : ι) :
    (t.clients c).currentUser =
      (s.registryAct e).elim (s.clients c).currentUser
        (Registry.sessionAfter c (s.clients c).currentUser) := by
  cases e with
  | launch c₀ =>
    cases hs
    simp only [registryAct, Option.elim_none, launch]
    have hstart := @session_performOne ι _ (s.modify c₀ fun cl =>
      { cl with epoch := cl.epoch + 1, running := true, fault := none }) c₀ 0 {} .presentInitial
      (by simp) c
    refine hstart.trans ?_
    rw [clients_modify]
    split_ifs with hc
    · rw [hc]
    · rfl
  | act c₀ k a env =>
    obtain ⟨n, res, hn, -, -, -, hact, rfl⟩ := act_cases hs
    rw [At] at hn
    have hdraw : ((s.draw a env).clients c).currentUser = (s.clients c).currentUser := by
      rw [clients_draw]
    simp only [registryAct, hn, Option.bind_some, Screen.signsOut, hact]
    cases res with
    | error x =>
      rw [session_handle (by simp), hdraw]
      rfl
    | ok x =>
      obtain ⟨scr, es⟩ := x
      by_cases hout : .signOut ∈ es
      · rw [session_logOut (Screen.act_spec hact).2.1 hout, hdraw]
        simp [hout, Registry.sessionAfter, eq_comm]
      · rw [session_handle (by rintro _ _ ⟨⟩; exact hout), hdraw]
        simp [hout]
  | serve i a =>
    rw [(serve_mem hs).1]
    cases a with
    | created uid =>
      rw [registryAct]
      cases hacc : (s.net[i]?).bind fun f => (f.request.newAccount uid).map
        (RegistryAct.create (δ := ι) (υ := String)) with
      | none => rfl
      | some act =>
        simp only [Option.bind_eq_some_iff, Option.map_eq_some_iff] at hacc
        obtain ⟨f, -, x, -, rfl⟩ := hacc
        rfl
    | success | failure => rfl
  | deliver i date =>
    obtain ⟨f, r, hi, hr, -, ⟨hdead, rfl⟩ | ⟨halive, u, rfl, hs'⟩⟩ := deliver_cases hs
    · simp only [registryAct, hi, Option.bind_some, if_neg hdead]
      rfl
    · have hsign : (((s.mark i f).signIn f.client r).clients c).currentUser =
          (s.registryAct (.deliver i date)).elim (s.clients c).currentUser
            (Registry.sessionAfter c (s.clients c).currentUser) := by
        simp only [registryAct, hi, Option.bind_some, if_pos halive, hr]
        unfold signIn
        split
        · simp only [clients_modify, Reply.signedIn, Option.map_some, Option.elim_some,
            Registry.sessionAfter, eq_comm]
          split_ifs <;> rfl
        · next hne =>
          have hnone : r.signedIn = none := by
            unfold Reply.signedIn
            split
            · next uid => exact absurd rfl (hne uid)
            · rfl
          rw [hnone]
          rfl
      rcases hs' with ⟨rfl, -⟩ | ⟨k, n, res, -, -, hres, rfl⟩
      · exact hsign
      · rw [session_handle (fun scr es h => signOut_notMem_receive (h ▸ hres)), hsign]
  | setMod uid mod =>
    cases hs
    rfl

end Sessions

/-! ## Accounts -/

section Accounts

variable [DecidableEq ι] {s t : System ι}

/-- **What a step does to the accounts.** -/
theorem accounts_of_step {e : Event ι} (hs : s.step e = some t) :
    (∃ a, s.registryAct e = some (.create a) ∧ t.accounts = s.accounts ++ [a] ∧
      (∀ b ∈ s.accounts, b.email ≠ a.email ∧ b.uid ≠ a.uid) ∧
        ∃ f ∈ s.net, ∃ k, f.request = .createUser a.email a.password k) ∨
      (∀ a, s.registryAct e ≠ some (.create a)) ∧ t.accounts = s.accounts := by
  by_cases hserve : ∃ i a, e = .serve i a
  · obtain ⟨i, a, rfl⟩ := hserve
    obtain ⟨f, u, r, hi, -, hserved, net, rfl, -⟩ := serve_cases hs
    have hf := List.mem_of_getElem? hi
    generalize hq : f.request = req at hserved
    cases hserved with
    | createUser email password uid k hfree =>
      exact .inl ⟨⟨email, password, uid⟩, by simp [registryAct, hi, hq, Request.newAccount], rfl,
        hfree, f, hf, k, hq⟩
    | _ => exact .inr ⟨fun a ha => by simp [registryAct] at ha, rfl⟩
  · have hne : ∀ a, s.registryAct e ≠ some (.create a) := by
      intro a ha
      cases e <;> simp [registryAct, Option.bind_eq_some_iff] at ha hserve
    refine .inr ⟨hne, ?_⟩
    by_cases hmod : ∃ uid mod, e = .setMod uid mod
    · obtain ⟨uid, mod, rfl⟩ := hmod
      cases hs
      rfl
    · exact (step_sameBackend hs (fun i a he => hserve ⟨i, a, he⟩)
        fun uid mod he => hmod ⟨uid, mod, he⟩).accounts

/-- An answer that signs somebody in is about an account. -/
theorem exists_account (h : (machine ι).Reachable s) : ∀ f ∈ s.net, ∀ uid,
    f.reply = some (.auth (.ok uid)) → ∃ a ∈ s.accounts, a.uid = uid := by
  refine h.induct (I := fun s => ∀ f ∈ s.net, ∀ uid, f.reply = some (.auth (.ok uid)) →
    ∃ a ∈ s.accounts, a.uid = uid) (fun s h₀ => by simp [h₀.net])
    fun s e t _ hi _ hs f hf uid hr => ?_
  rcases answered_cases hs hf hr with ⟨f₀, hf₀, -, hr₀⟩ | ⟨i, a, u, -, hserved, hsame, -⟩
  · obtain ⟨a, ha, hu⟩ := hi f₀ hf₀ uid hr₀
    exact ⟨a, (step_extends hs).accounts a ha, hu⟩
  · rw [← hsame.accounts]
    generalize hrep : Reply.auth (.ok uid) = r at hserved
    generalize f.request = req at hserved
    cases hserved with
    | createUser => cases hrep; exact ⟨_, List.mem_append_right _ List.mem_cons_self, rfl⟩
    | signIn email password k a ha => cases hrep; exact ⟨a, ha, rfl⟩
    | failed e hr => rw [← hrep] at hr; simp at hr
    | _ => cases hrep

/-! ## The policy -/

/-- The contract of the sign-up screen: the accounts it asks for are allowed. -/
def policed (ι : Type) : Contract ι where
  screen _ _ := True
  call _ _ r := ∀ email password k, r = .createUser email password k →
    Account.Allowed ⟨email, password, ""⟩
  answer _ _ _ := True

/-- The button asks for an account that has been checked. -/
theorem allowed_of_act {env : Env} {scr scr' : Screen} {a : Action} {es : List Effect}
    (h : scr.act env a = some (.ok (scr', es))) {email password : String} {k : Callback}
    (he : .request (.createUser email password k) ∈ es) :
    Account.Allowed ⟨email, password, ""⟩ := by
  have hemits := (Screen.act_spec h).2.2 _ he
  cases hemits with
  | table hl he =>
    generalize a.byUser = b at he
    cases he
  | @createUser s =>
    cases a
    case signUpPressed =>
      simp only [Screen.act, SignUpViewController.signUpPressed, Option.some.injEq, lift_eq_ok,
        bind_eq_ok, Prod.mk.injEq] at h
      obtain ⟨x, ⟨error, herror, hx⟩, -, rfl⟩ := h
      obtain ⟨error', herror', hiff⟩ := s.validateFields_ok
      cases herror.symm.trans herror'
      cases error with
      | some e => cases hx; cases he
      | none =>
        cases hx
        cases List.mem_singleton.1 he
        exact ⟨(hiff.1 rfl).email, (hiff.1 rfl).password⟩
    case type field text =>
      simp only [Screen.act, Option.map_eq_some_iff, Except.ok.injEq, Prod.mk.injEq] at h
      obtain ⟨_, -, -, rfl⟩ := h
      cases he
    case back =>
      cases h
      cases List.mem_singleton.1 he
    all_goals cases h

theorem createUser_notMem_receive {env : Env} {scr scr' : Screen} {kb k : Callback} {r : Reply}
    {es : List Effect} {email password : String}
    (h : scr.receive env kb r = some (.ok (scr', es))) :
    .request (.createUser email password k) ∉ es := by
  intro he
  cases (Screen.receive_answers h).2 _ he

theorem policed_sound (ι : Type) [DecidableEq ι] : (policed ι).Sound where
  screen _ h := h
  call _ h := h
  answer _ h := h
  initial _ := trivial
  tabBar _ := trivial
  home _ := by
    refine ⟨trivial, fun r hr email password k hreq => ?_⟩
    cases List.mem_singleton.1 hr
    cases hreq
  act {s c k n a env scr' es} _ _ _ _ hact := by
    refine ⟨trivial, fun _ _ h => h, fun e he => ?_⟩
    cases e with
    | request r =>
      rintro email password kb rfl
      exact allowed_of_act hact he
    | segue d =>
      intro env' scr'' es' hload
      obtain ⟨rs, hloaded, rfl⟩ := Screen.load_loaded hload
      refine ⟨trivial, fun r hr email password kb hreq => ?_⟩
      subst hreq
      cases hloaded <;> simp at hr
    | _ => trivial
  receive {s f r kb n env scr' es} _ _ _ _ _ _ hres := by
    refine ⟨trivial, fun _ _ h => h, fun e he => ?_⟩
    cases e with
    | request r =>
      rintro email password kb rfl
      exact absurd he (createUser_notMem_receive hres)
    | segue d => exact absurd he (Screen.segue_notMem_receive hres d)
    | _ => trivial
  serve _ _ _ _ := trivial

/-! ## The refinement -/

/-- A session that is entered is that of an account. -/
theorem account_of_enter (h : (machine ι).Reachable s) {e : Event ι} {c : ι} {u : String}
    (ha : s.registryAct e = some (.enter c u)) : ∃ a ∈ s.accounts, a.uid = u := by
  cases e with
  | act c' k a env =>
    simp only [registryAct, Option.bind_eq_some_iff] at ha
    obtain ⟨n, -, ha⟩ := ha
    split_ifs at ha
    cases ha
  | serve i a =>
    cases a with
    | created uid =>
      simp only [registryAct, Option.bind_eq_some_iff, Option.map_eq_some_iff] at ha
      obtain ⟨f, -, acc, -, ha⟩ := ha
      cases ha
    | success | failure => cases ha
  | deliver i date =>
    simp only [registryAct, Option.bind_eq_some_iff] at ha
    obtain ⟨f, hi, ha⟩ := ha
    split_ifs at ha
    simp only [Option.map_eq_some_iff, Option.bind_eq_some_iff] at ha
    obtain ⟨uid, ⟨r, hr, huid⟩, ha⟩ := ha
    cases ha
    unfold Reply.signedIn at huid
    split at huid <;> cases huid
    exact exists_account h f (List.mem_of_getElem? hi) u hr
  | _ => cases ha

/-- A step with an act is a step of the registry. -/
theorem registry_step (h : (machine ι).Reachable s) {e : Event ι} (hs : s.step e = some t)
    {a : RegistryAct ι Account String} (ha : s.registryAct e = some a) :
    (registry ι Account.email Account.uid Account.Allowed).step s.registryOf a =
      some t.registryOf := by
  have hsession := session_of_step hs
  rw [ha] at hsession
  rcases accounts_of_step hs with ⟨acc, hacc, haccounts, hfree, f, hf, k, hreq⟩ | ⟨hno, haccounts⟩
  · cases hacc.symm.trans ha
    obtain ⟨_, -, hcall⟩ := ((policed_sound ι).kept h).calls f hf
    have hallowed := hcall _ _ _ hreq
    exact Registry.step_eq_some.2
      ⟨⟨⟨hallowed.email, hallowed.password⟩, hfree⟩, haccounts, hsession⟩
  · refine Registry.step_eq_some.2 ⟨?_, ?_, hsession⟩
    · cases a with
      | create acc => exact absurd ha (hno acc)
      | enter c u => exact account_of_enter h ha
      | leave c => trivial
    · cases a with
      | create acc => exact absurd ha (hno acc)
      | enter c u => exact haccounts.trans (List.append_nil _).symm
      | leave c => exact haccounts.trans (List.append_nil _).symm

/-- A step without one is nothing to the registry. -/
theorem registry_stays {e : Event ι} (hs : s.step e = some t) (ha : s.registryAct e = none) :
    t.registryOf = s.registryOf := by
  have hsession := session_of_step hs
  rw [ha] at hsession
  rcases accounts_of_step hs with ⟨acc, hacc, -⟩ | ⟨-, haccounts⟩
  · rw [ha] at hacc
    cases hacc
  · simp only [registryOf, haccounts, hsession]
    rfl

omit [DecidableEq ι] in
theorem registryOf_initial (h : s.Initial) (c : ι) : s.registryOf.session c = none := by
  change (s.clients c).currentUser = none
  rw [h.clients c]

/-- **The app refines the registry.** -/
theorem refines_registry (ι : Type) [DecidableEq ι] :
    (machine ι).Refines (registry ι Account.email Account.uid Account.Allowed) registryOf
      registryAct where
  initial _ h := registryOf_initial h
  visible _ _ _ _ h hs ha := registry_step h hs ha
  hidden _ _ _ _ hs ha := registry_stays hs ha

/-- The run of the registry that a run of the system is. -/
theorem registry_steps (hs : (machine ι).Reachable s) {es : List (Event ι)}
    (hrun : (machine ι).Steps (fun _ _ => True) s es t) :
    (registry ι Account.email Account.uid Account.Allowed).Steps (fun _ _ => True) s.registryOf
      ((machine ι).log (fun s e => (s.registryAct e).toList) s es) t.registryOf :=
  Machine.Refines.steps ⟨fun _ h => registryOf_initial h,
    fun _ _ _ _ h hs ha => registry_step h hs ha, fun _ _ _ _ hs ha => registry_stays hs ha⟩ hs hrun

/-- A user document says whose it is. -/
theorem id_of_user (h : (machine ι).Reachable s) :
    ∀ u d, (s.store .users).lookup u = some d → d "id" = some (.string u) := by
  refine h.induct (I := fun s => ∀ u d, (s.store .users).lookup u = some d →
    d "id" = some (.string u)) (fun s h₀ u d hd => ?_) fun s e t hvia hi _ hs u d hd => ?_
  · obtain ⟨name, bio, mod, rfl⟩ := h₀.users u d hd
    rfl
  have hinv : s.Inv False := reachable_inv (hvia.mono fun _ _ _ => False.elim)
  have hch := step_changes (reachable_fresh hvia) hs .users u
  rw [hd] at hch
  generalize ho : (s.store .users).lookup u = o at hch
  cases hch with
  | unchanged => exact hi u d ho
  | setData f fields k hf hreq =>
    have hcalls := hinv.calls f hf.mem
    rw [hreq] at hcalls
    cases hcalls
    rfl
  | updateData f ups d' hf hreq =>
    have hcalls := hinv.calls f hf.mem
    rw [hreq] at hcalls
    rw [Document.update_of_notMem fun hk => ?_]
    · exact hi u d' ho
    rcases hcalls.updateData_cases with ⟨-, hups, -⟩ | ⟨-, -, p, v, rfl, -⟩ | ⟨-, hm, -⟩
    · rcases hups _ hk with h | h | h <;> exact absurd h (by decide)
    · simp at hk
    · exact hm.ne_users rfl
  | setMod mod d' =>
    rw [Document.update_of_notMem (by simp)]
    exact hi u d' ho

/-- **The accounts of a run.** The new ones meet the policy, and have e-mail addresses and ids of
their own; every user document is that of an account. -/
theorem accounts_of_run {s₀ : System ι} (h₀ : s₀.Initial) {es : List (Event ι)}
    (hrun : (machine ι).Steps (fun _ _ => True) s₀ es s) :
    s₀.registryOf.Grows Account.email Account.uid Account.Allowed s.registryOf ∧
      ∀ u d, (s.store .users).lookup u = some d →
        (∃ a ∈ s.accounts, a.uid = u) ∧ d "id" = some (.string u) := by
  have hreach : (machine ι).Reachable s := hrun.reachable (.init h₀)
  exact ⟨Registry.grows_of_steps (registry_steps (.init h₀) hrun), fun u d hd =>
    ⟨(reachable_fresh hreach).stored .users u d hd, id_of_user hreach u d hd⟩⟩

/-- Carl signs up. -/
theorem accounts_of_run_carl : ∃ s : System Unit,
    ⟨"carl@cis.edu.hk", "secret12!", "carl"⟩ ∈ s.accounts ∧
      (start annAndBob).registryOf.Grows Account.email Account.uid Account.Allowed s.registryOf ∧
        ∀ u d, (s.store .users).lookup u = some d →
          (∃ a ∈ s.accounts, a.uid = u) ∧ d "id" = some (.string u) := by
  obtain ⟨s, hs, hp⟩ := (machine Unit).exists_of_run (start annAndBob) (carlSignsUp .success)
    (fun s => decide ((⟨"carl@cis.edu.hk", "secret12!", "carl"⟩ : Account) ∈ s.accounts))
    (by decide +kernel)
  exact ⟨s, of_decide_eq_true hp, accounts_of_run (initial_start _) hs⟩

/-- **The sessions of a run.** Who is signed in on a device has an account, and is decided by the
sign-ins and log-outs of that device. -/
theorem sessions_of_run {s₀ : System ι} (h₀ : s₀.Initial) {es : List (Event ι)}
    (hrun : (machine ι).Steps (fun _ _ => True) s₀ es s) (c : ι) :
    (s.clients c).currentUser =
      ((machine ι).log (fun s e => (s.registryAct e).toList) s₀ es).foldl
        (Registry.sessionAfter c) none ∧
      ∀ u, (s.clients c).currentUser = some u → ∃ a ∈ s.accounts, a.uid = u := by
  have hsteps := registry_steps (.init h₀) hrun
  have hnone := registryOf_initial h₀
  refine ⟨?_, fun u hu => ?_⟩
  · rw [← hnone c]
    exact Registry.session_eq hsteps c
  · have hvalid : s₀.registryOf.SessionsValid Account.uid := fun d u hd => by
      rw [hnone d] at hd
      cases hd
    exact hvalid.steps hsteps c u hu

theorem sessions_of_run_carl : ∃ s : System Unit, (s.clients ()).currentUser = some "carl" ∧
    (s.clients ()).currentUser =
      ((machine Unit).log (fun s e => (s.registryAct e).toList) (start annAndBob)
        (carlSignsUp .success)).foldl (Registry.sessionAfter ()) none ∧
      ∀ u, (s.clients ()).currentUser = some u → ∃ a ∈ s.accounts, a.uid = u := by
  obtain ⟨s, hs, hp⟩ := (machine Unit).exists_of_run (start annAndBob) (carlSignsUp .success)
    (fun s => decide ((s.clients ()).currentUser = some "carl")) (by decide +kernel)
  exact ⟨s, of_decide_eq_true hp, sessions_of_run (initial_start _) hs ()⟩

end Accounts

end System

end ArtsExplorer
