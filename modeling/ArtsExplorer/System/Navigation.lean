import ArtsExplorer.System.History

/-!
# Where the user can be

`Client.Nav` is what holds of the screens of a device in every reachable state: the container in
front is the newest one; it is the initial navigation controller, with one of its screens on top, or
a tab bar, which holds none of the entry screens. With it comes the session discipline. Under a tab
bar every screen was loaded for the user who is signed in, unless an answer to a log-in or sign-up
arrived late (`Late`), when another tab bar was already in front: the app then has another signed-in
user than the one its screens were loaded for. And somebody is signed in under a tab bar, unless it
was shown after a failed sign-up (`FailedSignUp`). The parameters `sync` and `guarded` say whether
runs with the one or the other are excluded.
-/

namespace ArtsExplorer

open Foundations

/-! ## Quiet effects -/

namespace System

variable {ι : Type} [DecidableEq ι] {s s' : System ι} {c : ι} {k : ℕ}

/-- `s'` is `s` after the calls `rs` of screen `k`, up to the alerts of the device. -/
structure Quiet (s : System ι) (c : ι) (k : ℕ) (rs : List Request) (s' : System ι) : Prop where
  others : ∀ c', c' ≠ c → s'.clients c' = s.clients c'
  client : s'.clients c = { s.clients c with alerts := (s'.clients c).alerts }
  net : s'.net = s.net ++ rs.map (s.flight c k)
  store : s'.store = s.store
  objects : s'.objects = s.objects
  accounts : s'.accounts = s.accounts
  uuids : s'.uuids = s.uuids
  entries : s'.entries = s.entries

/-- What quiet effects do. -/
theorem perform_quiet (env : Env) {es : List Effect} (h : ∀ e ∈ es, e.isQuiet = true) :
    s.Quiet c k (requests es) (perform env s c k es) := by
  induction es generalizing s with
  | nil => exact ⟨fun _ _ => rfl, rfl, by simp [perform, requests], rfl, rfl, rfl, rfl, rfl⟩
  | cons e es ih =>
    have he := h e List.mem_cons_self
    have hes := fun e he => h e (List.mem_cons_of_mem _ he)
    cases e with
    | request r =>
      have := @ih (s.send c k r) hes
      refine ⟨this.others, this.client, ?_, this.store, this.objects, this.accounts, this.uuids,
        this.entries⟩
      rw [perform, performOne, this.net]
      simp [send, requests, flight]
    | createAlert title message =>
      have := @ih (s.performOne c k env (.createAlert title message)) hes
      have hcl : (s.performOne c k env (.createAlert title message)).clients c =
          { s.clients c with alerts := (s.clients c).alerts ++ [(title, message)] } := by
        simp [performOne]
      refine ⟨fun c' hc => ?_, ?_, ?_, this.store, this.objects, this.accounts, this.uuids,
        this.entries⟩
      · rw [perform, this.others c' hc]
        simp [performOne, hc]
      · rw [perform, this.client, hcl]
      · rw [perform, this.net]
        simp [performOne, requests, flight, modify]
    | segue | pop | goToHome | signOut | presentInitial => cases he

theorem perform_append (env : Env) (es es' : List Effect) :
    perform env s c k (es ++ es') = perform env (perform env s c k es) c k es' := by
  induction es generalizing s with
  | nil => rfl
  | cons e es ih => exact ih

end System

/-! ## The screens of a device -/

namespace Client

variable {cl cl' : Client} {sync guarded : Prop} {k : ℕ} {opener : Option ℕ} {screen : Screen}
  {n : Node}

/-- Screen `o` is there, in the container `i`. -/
def Holds (cl : Client) (o i : ℕ) : Prop := ∃ m, cl.nodes[o]? = some m ∧ m.container = i

/-- The containers are numbered in the order of creation, and the sign-up and log-in screens were
opened from a screen of their container. -/
structure Layout (cl : Client) : Prop where
  container_le : ∀ (k : ℕ) (n : Node), cl.nodes[k]? = some n → n.container ≤ cl.front
  opener : ∀ (k : ℕ) (n : Node), cl.nodes[k]? = some n →
    n.screen.kind = .signUp ∨ n.screen.kind = .logIn →
      ∃ o, n.opener = some o ∧ cl.Holds o n.container

/-- The invariant of a device's screens. -/
structure Nav (sync guarded : Prop) (cl : Client) : Prop extends Layout cl where
  isEntry : ∀ (k : ℕ) (n : Node), cl.nodes[k]? = some n → n.container = cl.front →
    (n.screen.kind.isEntry = true ↔ cl.top ≠ none)
  top : ∀ t, cl.top = some t → cl.Holds t cl.front
  user : sync → ∀ (k : ℕ) (n : Node), cl.nodes[k]? = some n → n.container = cl.front →
    cl.top = none → n.user = cl.currentUser
  signedIn : guarded → ∀ (k : ℕ) (n : Node), cl.nodes[k]? = some n → n.container = cl.front →
    cl.top = none → cl.currentUser ≠ none

theorem getElem?_push {j : ℕ} {m : Node} :
    (cl.push opener screen).nodes[j]? = some m ↔
      cl.nodes[j]? = some m ∨
        (j = cl.nodes.length ∧ m = ⟨cl.front, opener, cl.currentUser, screen⟩) := by
  rw [push, List.getElem?_append]
  split_ifs with hj
  · constructor
    · exact .inl
    · rintro (h | ⟨rfl, -⟩)
      · exact h
      · omega
  · have hnone : cl.nodes[j]? = none := List.getElem?_eq_none (by omega)
    rw [hnone, List.getElem?_singleton]
    constructor
    · intro h
      split_ifs at h with h0
      exact .inr ⟨by omega, (Option.some.inj h).symm⟩
    · rintro (h | ⟨rfl, rfl⟩)
      · cases h
      · simp

theorem Holds.push {o i : ℕ} (h : cl.Holds o i) : (cl.push opener screen).Holds o i := by
  obtain ⟨m, hm, hi⟩ := h
  exact ⟨m, getElem?_push.2 (.inl hm), hi⟩

theorem holds_push : (cl.push opener screen).Holds cl.nodes.length cl.front :=
  ⟨_, getElem?_push.2 (.inr ⟨rfl, rfl⟩), rfl⟩

/-- Everything in `Nav` is about what a screen keeps. -/
theorem Nav.congr (h : cl.Nav sync guarded) (hfront : cl'.front = cl.front)
    (htop : cl'.top = cl.top) (huser : cl'.currentUser = cl.currentUser)
    (hnew : ∀ (k : ℕ) (n' : Node), cl'.nodes[k]? = some n' → ∃ n, cl.nodes[k]? = some n ∧
      n.Keeps n')
    (hold : ∀ (k : ℕ) (n : Node), cl.nodes[k]? = some n → ∃ n', cl'.nodes[k]? = some n' ∧
      n.Keeps n') :
    cl'.Nav sync guarded := by
  have hholds : ∀ o i, cl.Holds o i → cl'.Holds o i := by
    rintro o i ⟨m, hm, rfl⟩
    obtain ⟨m', hm', hk⟩ := hold o m hm
    exact ⟨m', hm', hk.container⟩
  refine ⟨⟨fun k n' hn' => ?_, fun k n' hn' hkind => ?_⟩, fun k n' hn' hc => ?_, fun t ht => ?_,
    fun hs k n' hn' hc ht => ?_, fun hg k n' hn' hc ht => ?_⟩
  · obtain ⟨n, hn, hk⟩ := hnew k n' hn'
    rw [hk.container, hfront]
    exact h.container_le k n hn
  · obtain ⟨n, hn, hk⟩ := hnew k n' hn'
    rw [hk.kind] at hkind
    obtain ⟨o, ho, hh⟩ := h.opener k n hn hkind
    exact ⟨o, hk.opener.trans ho, hk.container ▸ hholds o _ hh⟩
  · obtain ⟨n, hn, hk⟩ := hnew k n' hn'
    rw [hk.kind, htop]
    exact h.isEntry k n hn (by rw [← hk.container, hc, hfront])
  · rw [htop] at ht
    rw [hfront]
    exact hholds t _ (h.top t ht)
  · obtain ⟨n, hn, hk⟩ := hnew k n' hn'
    rw [hk.user, huser]
    exact h.user hs k n hn (by rw [← hk.container, hc, hfront]) (htop ▸ ht)
  · obtain ⟨n, hn, hk⟩ := hnew k n' hn'
    rw [huser]
    exact h.signedIn hg k n hn (by rw [← hk.container, hc, hfront]) (htop ▸ ht)

/-- A change of a device that leaves its screens and its user as they are. -/
theorem Nav.of_eq (h : cl.Nav sync guarded) (hnodes : cl'.nodes = cl.nodes)
    (hfront : cl'.front = cl.front) (htop : cl'.top = cl.top)
    (huser : cl'.currentUser = cl.currentUser) : cl'.Nav sync guarded :=
  h.congr hfront htop huser (fun _ n hn => ⟨n, hnodes ▸ hn, .refl n⟩)
    fun _ n hn => ⟨n, hnodes ▸ hn, .refl n⟩

theorem getElem?_setScreen {j : ℕ} {m : Node} (hm : (cl.setScreen k screen).nodes[j]? = some m) :
    ∃ n, cl.nodes[j]? = some n ∧ m = if k = j then { n with screen := screen } else n := by
  rw [setScreen, List.getElem?_modify] at hm
  cases hn : cl.nodes[j]? with
  | none => simp [hn] at hm
  | some n =>
    refine ⟨n, rfl, ?_⟩
    split_ifs with hkj <;> simpa [hn, hkj, eq_comm] using hm

theorem Nav.setScreen (h : cl.Nav sync guarded) (hn : cl.nodes[k]? = some n)
    (hk : screen.kind = n.screen.kind) : (cl.setScreen k screen).Nav sync guarded := by
  refine h.congr rfl rfl rfl (fun j m hm => ?_) fun j m hm => ?_
  · obtain ⟨n', hn', rfl⟩ := getElem?_setScreen hm
    refine ⟨n', hn', ?_⟩
    split_ifs with hkj
    · subst hkj
      have hnn : n' = n := Option.some.inj (hn'.symm.trans hn)
      subst hnn
      exact ⟨rfl, rfl, rfl, hk⟩
    · exact .refl n'
  · by_cases hkj : k = j
    · subst hkj
      have hnn : m = n := Option.some.inj (hm.symm.trans hn)
      subst hnn
      exact ⟨{ m with screen := screen }, by simp [Client.setScreen, hm], rfl, rfl, rfl, hk⟩
    · exact ⟨m, by simp [Client.setScreen, hkj, hm], .refl m⟩

theorem Layout.push (h : cl.Layout)
    (ho : screen.kind = .signUp ∨ screen.kind = .logIn → ∃ o, opener = some o ∧
      cl.Holds o cl.front) :
    (cl.push opener screen).Layout := by
  refine ⟨fun j m hm => ?_, fun j m hm hkind => ?_⟩ <;> rcases getElem?_push.1 hm with hm | ⟨-, rfl⟩
  · exact h.container_le j m hm
  · exact le_refl _
  · obtain ⟨o, hop, hh⟩ := h.opener j m hm hkind
    exact ⟨o, hop, hh.push⟩
  · obtain ⟨o, hop, hh⟩ := ho hkind
    exact ⟨o, hop, hh.push⟩

/-- A new container in front is empty. -/
theorem Layout.newFront (h : cl.Layout) (t : Option ℕ) :
    ({ cl with front := cl.front + 1, top := t } : Client).Layout :=
  ⟨fun k n hn => (h.container_le k n hn).trans (Nat.le_succ _), h.opener⟩

theorem Nav.showInitial (h : cl.Layout) : cl.showInitial.Nav sync guarded := by
  refine ⟨(h.newFront _).push (by simp [Screen.kind]), fun j m hm hc => ?_, fun t ht => ?_,
    fun _ _ _ _ _ ht => (by cases ht), fun _ _ _ _ _ ht => by cases ht⟩
  · rcases getElem?_push.1 hm with hm | ⟨-, rfl⟩
    · have hle := h.container_le j m hm
      change m.container = cl.front + 1 at hc
      omega
    · exact ⟨fun _ => by simp [Client.showInitial, Client.push], fun _ => rfl⟩
  · cases ht
    exact holds_push

theorem Nav.showHome (h : cl.Layout) (hg : guarded → cl.currentUser ≠ none) :
    cl.showHome.Nav sync guarded := by
  have hnew : ∀ (j : ℕ) (m : Node), cl.showHome.nodes[j]? = some m → m.container = cl.front + 1 →
      m.screen.kind.isEntry = false ∧ m.user = cl.currentUser := by
    intro j m hm hc
    rcases getElem?_push.1 hm with hm | ⟨-, rfl⟩
    · rcases getElem?_push.1 hm with hm | ⟨-, rfl⟩
      · have hle := h.container_le j m hm
        omega
      · exact ⟨rfl, rfl⟩
    · exact ⟨rfl, rfl⟩
  refine ⟨((h.newFront none).push (by simp [Screen.kind])).push (by simp [Screen.kind]),
    fun j m hm hc => ?_, fun t ht => (by cases ht), fun _ j m hm hc _ => (hnew j m hm hc).2,
    fun hg' _ _ _ _ _ => hg hg'⟩
  have hentry := (hnew j m hm hc).1
  simp [hentry, Client.showHome, Client.push]

/-- The condition under which a segue from screen `k` keeps the invariant. -/
def SegueOK (cl : Client) (k : ℕ) (d : Destination) : Prop :=
  (d.kind.isEntry = true ↔ cl.top ≠ none) ∧ cl.Holds k cl.front

theorem Nav.openScreen (h : cl.Nav sync guarded) {d : Destination} (hd : cl.SegueOK k d)
    (hk : screen.kind = d.kind) : (cl.openScreen k screen).Nav sync guarded := by
  have hlay : (cl.push (some k) screen).Layout := h.toLayout.push fun _ => ⟨k, rfl, hd.2⟩
  have htop : (cl.top.map fun _ => cl.nodes.length) ≠ none ↔ cl.top ≠ none := by
    cases cl.top <;> simp
  refine ⟨⟨hlay.container_le, hlay.opener⟩, fun j m hm hc => ?_, fun t ht => ?_,
    fun hs j m hm hc ht => ?_, fun hg j m hm hc ht => ?_⟩
  · change _ ↔ (cl.top.map fun _ => cl.nodes.length) ≠ none
    rw [htop]
    rcases getElem?_push.1 hm with hm | ⟨-, rfl⟩
    · exact h.isEntry j m hm hc
    · rw [hk]
      exact hd.1
  · change (cl.top.map fun _ => cl.nodes.length) = some t at ht
    obtain ⟨_, -, rfl⟩ := Option.map_eq_some_iff.1 ht
    exact holds_push
  · change (cl.top.map fun _ => cl.nodes.length) = none at ht
    rcases getElem?_push.1 hm with hm | ⟨-, rfl⟩
    · exact h.user hs j m hm hc (Option.map_eq_none_iff.1 ht)
    · rfl
  · change (cl.top.map fun _ => cl.nodes.length) = none at ht
    obtain ⟨m, hm, hc⟩ := hd.2
    exact h.signedIn hg k m hm hc (Option.map_eq_none_iff.1 ht)

theorem Nav.pop (h : cl.Nav sync guarded) {o : ℕ} (ho : cl.Holds o cl.front) (ht : cl.top ≠ none) :
    ({ cl with top := some o } : Client).Nav sync guarded := by
  refine ⟨⟨h.container_le, h.opener⟩, fun k n hn hc => ?_, fun t ht' => ?_,
    fun _ _ _ _ _ ht' => (by cases ht'), fun _ _ _ _ _ ht' => by cases ht'⟩
  · have := h.isEntry k n hn hc
    simp only [this, ne_eq, ht, not_false_eq_true, reduceCtorEq]
  · cases ht'
    exact ho

/-- A screen the user acts on is on top, or under a tab bar and none of the entry screens. -/
theorem Nav.reaches (h : cl.Nav sync guarded) (hn : cl.nodes[k]? = some n)
    (hr : System.Reaches cl k n) :
    (n.screen.kind.isEntry = true → cl.top = some k) ∧
      (n.screen.kind.isEntry = false → cl.top = none) := by
  have hentry := h.isEntry k n hn hr.1
  refine ⟨fun he => ?_, fun he => ?_⟩
  · rcases hr.2 with ht | ht
    · exact absurd ht (hentry.1 he)
    · exact ht
  · by_contra ht
    rw [hentry.2 ht] at he
    cases he

end Client

/-! ## Steps -/

namespace System

variable {ι : Type} [DecidableEq ι] {s s' : System ι} {c : ι} {k : ℕ} {sync guarded : ι → Prop}

/-- The event delivers a successful log-in or sign-up to device `c`, whose tab bar is in front. -/
def Late (s : System ι) (c : ι) (e : Event ι) : Prop :=
  ∃ i date f uid, e = .deliver i date ∧ s.net[i]? = some f ∧ f.client = c ∧
    f.reply = some (.auth (.ok uid)) ∧ f.delivered = false ∧ s.Alive f ∧ (s.clients c).top = none

/-- Whether an event is late on some device. -/
def isLate (s : System ι) : Event ι → Bool
  | .deliver i _ =>
    match s.net[i]? with
    | some f =>
      match f.reply with
      | some (.auth (.ok _)) =>
        !f.delivered && decide (s.Alive f) && (s.clients f.client).top.isNone
      | _ => false
    | none => false
  | _ => false

omit [DecidableEq ι] in
theorem not_late_of_isLate (s : System ι) (e : Event ι) (h : (!s.isLate e) = true) (c : ι) :
    ¬ s.Late c e := by
  rintro ⟨i, date, f, uid, rfl, hi, rfl, hrep, hd, ha, ht⟩
  simp [isLate, hi, hrep, hd, ha, ht] at h

/-- The event delivers a failed `createUser` to the sign-up screen in front of device `c`, with
nobody signed in. -/
def FailedSignUp (s : System ι) (c : ι) (e : Event ι) : Prop :=
  ∃ i date f err nameText n screen, e = .deliver i date ∧ s.net[i]? = some f ∧ f.client = c ∧
    f.reply = some (.auth (.error err)) ∧ f.request.callback = some (.userCreated nameText) ∧
    f.delivered = false ∧ s.Alive f ∧ (s.clients c).top = some f.node ∧
    (s.clients c).currentUser = none ∧ s.At c f.node n ∧ n.screen = .signUp screen

/-- The condition under which an effect of screen `k` keeps the invariant. -/
def NavOK (guarded : Prop) (cl : Client) (k : ℕ) : Effect → Prop
  | .segue d => cl.SegueOK k d
  | .pop => ∃ n o, cl.nodes[k]? = some n ∧ n.opener = some o ∧ cl.Holds o cl.front ∧ cl.top ≠ none
  | .goToHome => guarded → cl.top = some k → cl.currentUser ≠ none
  | _ => True

/-- Every device keeps the invariant if the changed one does. -/
theorem nav_of_client (h : ∀ c, (s.clients c).Nav (sync c) (guarded c))
    (hothers : ∀ c', c' ≠ c → s'.clients c' = s.clients c')
    (hc : (s'.clients c).Nav (sync c) (guarded c)) :
    ∀ c, (s'.clients c).Nav (sync c) (guarded c) := by
  intro c'
  by_cases hcc : c' = c
  · exact hcc ▸ hc
  · rw [hothers c' hcc]
    exact h c'

theorem clients_enterHome (entrance : Entrance) (c' : ι) :
    (s.enterHome c entrance).clients c' = if c' = c then (s.clients c).showHome
      else s.clients c' := by
  simp only [enterHome, clients_sendAll, clients_modify]

theorem nav_modify {f : Client → Client} (h : ∀ c, (s.clients c).Nav (sync c) (guarded c))
    (hc : (f (s.clients c)).Nav (sync c) (guarded c)) :
    ∀ c', ((s.modify c f).clients c').Nav (sync c') (guarded c') :=
  nav_of_client (c := c) h (fun c' hc' => by rw [clients_modify, if_neg hc'])
    (by rw [clients_modify, if_pos rfl]; exact hc)

theorem nav_enterHome {entrance : Entrance} (h : ∀ c, (s.clients c).Nav (sync c) (guarded c))
    (hg : guarded c → (s.clients c).currentUser ≠ none) :
    ∀ c', ((s.enterHome c entrance).clients c').Nav (sync c') (guarded c') :=
  nav_of_client (c := c) h (fun c' hc' => by rw [clients_enterHome, if_neg hc'])
    (by rw [clients_enterHome, if_pos rfl]; exact .showHome (h c).toLayout hg)

/-- Showing the initial screen needs less of the device than the invariant: it also restores it
after a `signOut`. -/
theorem nav_enterInitial (h : ∀ c', c' ≠ c → (s.clients c').Nav (sync c') (guarded c'))
    (hc : (s.clients c).Layout) :
    ∀ c', ((s.enterInitial c).clients c').Nav (sync c') (guarded c') := by
  have hshow : ∀ c', ((s.modify c Client.showInitial).clients c').Nav (sync c') (guarded c') := by
    intro c'
    rw [clients_modify]
    split_ifs with hcc
    · exact .showInitial hc
    · exact h c' hcc
  unfold enterInitial
  split_ifs with hu
  · exact hshow
  · refine nav_enterHome hshow fun _ => ?_
    rw [clients_modify, if_pos rfl]
    exact hu

theorem nav_performOne {env : Env} {e : Effect} (h : ∀ c, (s.clients c).Nav (sync c) (guarded c))
    (he : e ≠ .signOut) (hok : NavOK (guarded c) (s.clients c) k e) :
    ∀ c', ((s.performOne c k env e).clients c').Nav (sync c') (guarded c') := by
  cases e with
  | request r => exact h
  | createAlert title message =>
    rw [performOne]
    exact nav_modify h ((h c).of_eq rfl rfl rfl rfl)
  | segue d =>
    simp only [performOne, openScreen]
    split
    · exact nav_modify h ((h c).of_eq rfl rfl rfl rfl)
    · next screen effects hload =>
      rw [clients_sendAll]
      exact nav_modify h ((h c).openScreen hok (Screen.load_kind hload))
  | pop =>
    obtain ⟨n, o, hn, ho, hh, ht⟩ := hok
    rw [performOne]
    refine nav_modify h ?_
    rw [hn, Option.bind_some, ho]
    exact (h c).pop hh ht
  | goToHome =>
    simp only [performOne]
    split_ifs with ht
    · exact nav_enterHome h fun hg => hok hg ht
    · exact h
  | signOut => exact absurd rfl he
  | presentInitial => exact nav_enterInitial (fun c' _ => h c') (h c).toLayout

/-- The invariant after a tidy list of effects. -/
theorem nav_perform {env : Env} {es : List Effect} (h : ∀ c, (s.clients c).Nav (sync c) (guarded c))
    (ht : Tidy es) (hok : ∀ e ∈ es, NavOK (guarded c) (s.clients c) k e) :
    ∀ c', ((perform env s c k es).clients c').Nav (sync c') (guarded c') := by
  have hquiet : ∀ {qs : List Effect}, (∀ e ∈ qs, e.isQuiet = true) →
      ∀ c', ((perform env s c k qs).clients c').Nav (sync c') (guarded c') := by
    intro qs hqs
    have hq := perform_quiet (s := s) (c := c) (k := k) env hqs
    refine nav_of_client h hq.others ?_
    rw [hq.client]
    exact (h c).of_eq rfl rfl rfl rfl
  cases ht with
  | quiet hes => exact hquiet hes
  | @last qs e hqs he =>
    rw [perform_append]
    have hq := perform_quiet (s := s) (c := c) (k := k) env hqs
    refine nav_performOne (hquiet hqs) he ?_
    rw [hq.client]
    exact hok e (List.mem_append_right _ List.mem_cons_self)
  | logOut =>
    refine nav_enterInitial (fun c' hc' => ?_) ?_
    · simp only [performOne, clients_modify, if_neg hc']
      exact h c'
    · simp only [performOne, clients_modify, if_pos]
      exact ⟨(h c).container_le, (h c).opener⟩

theorem nav_handle {env : Env} {r : Except Fault (After Screen)} {n : Node}
    (h : ∀ c, (s.clients c).Nav (sync c) (guarded c)) (hn : s.At c k n)
    (hr : ∀ a, r = .ok a → a.1.kind = n.screen.kind ∧ Tidy a.2 ∧
      ∀ e ∈ a.2, NavOK (guarded c) (s.clients c) k e) :
    ∀ c', ((s.handle c k env r).clients c').Nav (sync c') (guarded c') := by
  cases r with
  | error f =>
    rw [handle, crash]
    exact nav_modify h ((h c).of_eq rfl rfl rfl rfl)
  | ok a =>
    obtain ⟨hk, ht, hok⟩ := hr a rfl
    refine nav_perform (nav_modify h ((h c).setScreen hn hk)) ht fun e he => ?_
    have hkeep : ∀ {o i : ℕ}, (s.clients c).Holds o i →
        ((s.clients c).setScreen k a.1).Holds o i := by
      rintro o i ⟨m, hm, rfl⟩
      refine ⟨if k = o then { m with screen := a.1 } else m, ?_, by split_ifs <;> rfl⟩
      rw [Client.setScreen, List.getElem?_modify, hm]
      split_ifs <;> rfl
    have hok := hok e he
    rw [clients_modify, if_pos rfl]
    cases e with
    | segue d => exact ⟨hok.1, hkeep hok.2⟩
    | pop =>
      obtain ⟨m, o, hm, ho, hh, ht⟩ := hok
      refine ⟨if k = k then { m with screen := a.1 } else m, o, ?_, by simpa using ho, hkeep hh, ht⟩
      rw [Client.setScreen, List.getElem?_modify, hm]
      simp
    | goToHome => exact hok
    | _ => trivial

omit [DecidableEq ι] in
/-- What an action does is possible where the user is. -/
theorem navOK_of_emits {p q : Prop} {env : Env} {n : Node} {a : Action} {e : Effect}
    (h : (s.clients c).Nav p q) (hn : s.At c k n)
    (hr : a.byUser = true → Reaches (s.clients c) k n) (he : n.screen.Emits env a e) :
    NavOK q (s.clients c) k e := by
  have hfront : a.byUser = true → (s.clients c).Holds k (s.clients c).front := fun ha =>
    ⟨n, hn, (hr ha).1⟩
  have hentry : a.byUser = true → n.screen.kind.isEntry = true → (s.clients c).top ≠ none :=
    fun ha hk => by rw [(h.reaches hn (hr ha)).1 hk]; simp
  have hinner : a.byUser = true → n.screen.kind.isEntry = false → (s.clients c).top = none :=
    fun ha hk => (h.reaches hn (hr ha)).2 hk
  obtain ⟨container, opener, user, screen⟩ := n
  cases he with
  | table hl he =>
    have hk : screen.kind.isEntry = false := by cases screen <;> first | rfl | cases hl
    generalize hb : a.byUser = b at he
    cases he with
    | comments | otherProfile =>
      have htop := hinner hb hk
      exact ⟨by simp [Destination.kind, ScreenKind.isEntry, htop], hfront hb⟩
    | _ => trivial
  | back hk =>
    obtain ⟨o, ho, hh⟩ := h.opener k _ hn hk
    refine ⟨_, o, hn, ho, (hr rfl).1 ▸ hh, hentry rfl ?_⟩
    rcases hk with hk | hk <;> rw [hk] <;> rfl
  | signUpSegue | logInSegue =>
    have htop := hentry rfl rfl
    exact ⟨by simp [Destination.kind, ScreenKind.isEntry, htop], hfront rfl⟩
  | uploadTab | profileTab | moderation | savedSegue | moderationPostsSegue
  | moderationCommentsSegue =>
    have htop := hinner rfl rfl
    exact ⟨by simp [Destination.kind, ScreenKind.isEntry, htop], hfront rfl⟩
  | _ => trivial

/-- **A step keeps the invariant of every device.** -/
theorem step_nav {e : Event ι} (h : ∀ c, (s.clients c).Nav (sync c) (guarded c))
    (hs : s.step e = some s') (hl : ∀ c, sync c → ¬ s.Late c e)
    (hf : ∀ c, guarded c → ¬ s.FailedSignUp c e) :
    ∀ c, (s'.clients c).Nav (sync c) (guarded c) := by
  cases e with
  | launch c =>
    cases hs
    have hrun : ∀ c', ((s.modify c fun cl =>
        { cl with epoch := cl.epoch + 1, running := true, fault := none }).clients c').Nav (sync c')
          (guarded c') := nav_modify h ((h c).of_eq rfl rfl rfl rfl)
    exact nav_enterInitial (fun c' _ => hrun c') (hrun c).toLayout
  | act c k a env =>
    obtain ⟨n, r, hn, -, hr, -, hact, rfl⟩ := act_cases hs
    have hd : ∀ c', ((s.draw a env).clients c').Nav (sync c') (guarded c') := by rwa [clients_draw]
    refine nav_handle (n := n) hd (by rw [At, clients_draw]; exact hn) fun x hx => ?_
    subst hx
    obtain ⟨hk, ht, hem⟩ := Screen.act_spec hact
    refine ⟨hk, ht, fun e he => ?_⟩
    rw [clients_draw]
    exact navOK_of_emits (h c) hn hr (hem e he)
  | serve i a =>
    obtain ⟨f, t, r, -, -, he, net, rfl, -⟩ := serve_cases hs
    have hc := he.frame.1
    intro c
    rw [show ({ t with net := net } : System ι).clients = t.clients from rfl, hc]
    exact h c
  | deliver i date =>
    obtain ⟨f, r, hi, hrep, hd, ⟨-, rfl⟩ | ⟨ha, t, rfl, hs'⟩⟩ := deliver_cases hs
    · exact h
    · -- signing in changes nothing but the user, and only where no tab bar is in front
      have hsign : ∀ c, (((s.mark i f).signIn f.client r).clients c).Nav (sync c) (guarded c) := by
        unfold signIn
        split
        · next uid =>
          refine nav_modify h ⟨⟨(h f.client).container_le, (h f.client).opener⟩,
            (h f.client).isEntry, (h f.client).top, fun hsync k n hn hc ht => ?_,
            fun _ _ _ _ _ _ => by simp⟩
          exact absurd ⟨i, date, f, uid, rfl, hi, rfl, hrep, hd, ha, ht⟩ (hl _ hsync)
        · exact h
      rcases hs' with ⟨rfl, -⟩ | ⟨k, n, res, hk, hn, hres, rfl⟩
      · exact hsign
      · refine nav_handle hsign hn fun x hx => ?_
        subst hx
        obtain ⟨ht, hem⟩ := Screen.receive_answers hres
        refine ⟨Screen.receive_kind hres, ht, fun e he => ?_⟩
        have hans := hem e he
        obtain ⟨container, opener, user, screen⟩ := n
        cases hans with
        | signedUp nameText r =>
          intro hg htop
          cases r with
          | ok uid => simp [signIn]
          | error err =>
            intro hu
            exact hf _ hg ⟨i, date, f, err, nameText, _, _, rfl, hi, rfl, hrep, hk, hd, ha,
              htop, hu, hn,
              rfl⟩
        | signedIn uid =>
          intro _ _
          simp [signIn]
        | _ => trivial
  | setMod uid mod =>
    cases hs
    exact h

omit [DecidableEq ι] in
theorem initial_nav (h : s.Initial) : ∀ c, (s.clients c).Nav (sync c) (guarded c) := by
  intro c
  rw [h.clients c]
  refine ⟨⟨?_, ?_⟩, ?_, ?_, ?_, ?_⟩ <;> simp

/-- **The navigation invariant** in every reachable state. -/
theorem reachable_nav (sync guarded : ι → Prop)
    (h : (machine ι).Via
      (fun s e => ∀ c, (sync c → ¬ s.Late c e) ∧ (guarded c → ¬ s.FailedSignUp c e)) s) :
    ∀ c, (s.clients c).Nav (sync c) (guarded c) :=
  h.induct (fun _ h => initial_nav h) fun _ _ _ _ h hC hs =>
    step_nav h hs (fun c => (hC c).1) fun c => (hC c).2

end System

end ArtsExplorer
