import ArtsExplorer.System.Navigation

/-!
# Contracts of the screens

What the app's screens hold and call is decided by their handlers, one screen at a time. A
`Contract` states such a fact: what holds of every screen, of every call with respect to the screen
that made it, as that screen is *now*, and of every answer to a call. `Contract.Sound` collects what
has to be known of the handlers: an action, a closure on an answer to a call of its own screen, and
what `viewDidLoad` of a new screen does. Then the contract is kept in every reachable state
(`Contract.Sound.kept`), however the devices and the backend interleave.

The predicates may speak of the history of the system, as long as they stay true (`Extends`).
-/

namespace ArtsExplorer

open Foundations

/-- No closure opens a screen by a segue. -/
theorem Screen.segue_notMem_receive {env : Env} {scr scr' : Screen} {es : List Effect}
    {k : Callback} {r : Reply} (h : scr.receive env k r = some (.ok (scr', es))) (d : Destination) :
    .segue d ∉ es := by
  intro he
  have hans := (receive_answers h).2 _ he
  generalize hsegue : Effect.segue d = e at hans
  cases hans <;> cases hsegue

namespace System

/-- What shall hold of the screens, of the calls they have made and of the answers to these. -/
structure Contract (ι : Type) where
  screen : System ι → Screen → Prop
  /-- Of a call that this screen has made. -/
  call : System ι → Screen → Request → Prop
  answer : System ι → Request → Reply → Prop

namespace Contract

section Basic

variable {ι : Type} (C : Contract ι) (s : System ι)

/-- What an effect of screen `scr` needs: a call is one of its calls, and the screen that a segue
creates keeps the contract. -/
def Permits (scr : Screen) : Effect → Prop
  | .request r => C.call s scr r
  | .segue d => ∀ env scr' es, Screen.load env d = .ok (scr', es) →
    C.screen s scr' ∧ ∀ r, .request r ∈ es → C.call s scr' r
  | _ => True

/-- What a handler needs that turns screen `scr` into `scr'` and has the effects `es`. The calls
that the screen has made before must still be calls of the screen as it is then. -/
structure Allows (scr scr' : Screen) (es : List Effect) : Prop where
  screen : C.screen s scr'
  calls : ∀ (u : System ι) (r : Request), C.call u scr r → C.call u scr' r
  effects : ∀ e ∈ es, C.Permits s scr' e

/-- The contract is kept by all screens, calls and answers of a system. -/
structure Kept : Prop where
  screens : ∀ (c : ι) (k : ℕ) (n : Node), s.At c k n → C.screen s n.screen
  calls : ∀ f ∈ s.net, ∃ n, s.At f.client f.node n ∧ C.call s n.screen f.request
  answers : ∀ f ∈ s.net, ∀ r, f.reply = some r → C.answer s f.request r

/-- What the contract says stays true. -/
structure Stable : Prop where
  screen : ∀ {s t : System ι} {scr : Screen}, s.Extends t → C.screen s scr → C.screen t scr
  call : ∀ {s t : System ι} {scr : Screen} {r : Request}, s.Extends t → C.call s scr r →
    C.call t scr r
  answer : ∀ {s t : System ι} {r : Request} {rep : Reply}, s.Extends t → C.answer s r rep →
    C.answer t r rep

variable {C s}

theorem Stable.permits (h : C.Stable) {t : System ι} (he : s.Extends t) {scr : Screen} {e : Effect}
    (hp : C.Permits s scr e) : C.Permits t scr e := by
  cases e with
  | request r => exact h.call he hp
  | segue d =>
    intro env scr' es hl
    obtain ⟨hscr, hcalls⟩ := hp env scr' es hl
    exact ⟨h.screen he hscr, fun r hr => h.call he (hcalls r hr)⟩
  | _ => trivial

/-- The calls of screen `k` are calls of that screen. -/
theorem Kept.call (h : C.Kept s) {f : Flight ι} {n : Node} (hf : f ∈ s.net)
    (hn : s.At f.client f.node n) : C.call s n.screen f.request := by
  obtain ⟨m, hm, hcall⟩ := h.calls f hf
  cases Option.some.inj (hm.symm.trans hn)
  exact hcall

end Basic

/-- What has to be known of the handlers and of the backend. -/
structure Sound {ι : Type} [DecidableEq ι] (C : Contract ι) : Prop extends C.Stable where
  initial : ∀ s : System ι, C.screen s .initial
  tabBar : ∀ s : System ι, C.screen s (.tabBar false false)
  home : ∀ s : System ι, C.screen s (.home HomeViewController.viewDidLoad.1) ∧
    ∀ r, .request r ∈ HomeViewController.viewDidLoad.2 →
      C.call s (.home HomeViewController.viewDidLoad.1) r
  act : ∀ {s : System ι} {c : ι} {k : ℕ} {n : Node} {a : Action} {env : Env} {scr' : Screen}
    {es : List Effect}, (machine ι).Reachable s → s.At c k n → C.screen (s.draw a env) n.screen →
    (a.drawsUUID = true → env.uuid ∉ s.uuids) →
    n.screen.act (s.seenBy c env) a = some (.ok (scr', es)) →
    C.Allows (s.draw a env) n.screen scr' es
  receive : ∀ {s : System ι} {f : Flight ι} {r : Reply} {k : Callback} {n : Node} {env : Env}
    {scr' : Screen} {es : List Effect}, (machine ι).Reachable s → C.Kept s → f ∈ s.net →
    f.reply = some r → f.request.callback = some k → s.At f.client f.node n →
    n.screen.receive env k r = some (.ok (scr', es)) → C.Allows s n.screen scr' es
  serve : ∀ {s t : System ι} {f : Flight ι} {a : Answer} {r : Reply}, (machine ι).Reachable s →
    C.Kept s → f ∈ s.net → s.Served f.request a t r → C.answer s f.request r

/-! ## The primitives -/

section Primitives

variable {ι : Type} [DecidableEq ι] {C : Contract ι} {s t : System ι} {c : ι} {k : ℕ}

omit [DecidableEq ι] in
/-- **The rule for a change of the devices**: new calls and new screens have to be accounted for,
and the screens that change must not lose their calls. -/
theorem Kept.extend (h : C.Kept s) (hC : C.Stable) (he : s.Extends t)
    (hnet : ∀ f ∈ t.net, (f.reply = none ∧ ∃ n, t.At f.client f.node n ∧
      C.call t n.screen f.request) ∨ ∃ f₀ ∈ s.net, f₀.Grows f ∧ f.reply = f₀.reply)
    (hscr : ∀ c k n, t.At c k n → s.At c k n ∨ C.screen t n.screen)
    (hkeep : ∀ c k n, s.At c k n → ∃ n', t.At c k n' ∧
      ∀ r, C.call t n.screen r → C.call t n'.screen r) : C.Kept t := by
  refine ⟨fun c k n hn => ?_, fun f hf => ?_, fun f hf r hr => ?_⟩
  · rcases hscr c k n hn with hn | hok
    · exact hC.screen he (h.screens c k n hn)
    · exact hok
  · rcases hnet f hf with ⟨-, hcall⟩ | ⟨f₀, hf₀, hg, -⟩
    · exact hcall
    · obtain ⟨n, hn, hcall⟩ := h.calls f₀ hf₀
      obtain ⟨n', hn', hkept⟩ := hkeep _ _ _ hn
      rw [hg.client, hg.node, hg.request]
      exact ⟨n', hn', hkept _ (hC.call he hcall)⟩
  · rcases hnet f hf with ⟨hnone, -⟩ | ⟨f₀, hf₀, hg, hrep⟩
    · rw [hnone] at hr
      cases hr
    · rw [hg.request]
      exact hC.answer he (h.answers f₀ hf₀ r (hrep ▸ hr))

/-- A change that concerns neither screens nor calls. -/
theorem Kept.modify (h : C.Kept s) (hC : C.Stable) {f : Client → Client}
    (hf : (f (s.clients c)).nodes = (s.clients c).nodes) : C.Kept (s.modify c f) := by
  have hat : ∀ c' k' n, (s.modify c f).At c' k' n ↔ s.At c' k' n := by
    intro c' k' n
    rw [At, clients_modify, At]
    split_ifs with hc
    · rw [hf, hc]
    · rfl
  exact h.extend hC (extends_modify_of_nodes hf) (fun g hg => .inr ⟨g, hg, .refl g, rfl⟩)
    (fun c' k' n hn => .inl ((hat c' k' n).1 hn))
    fun c' k' n hn => ⟨n, (hat c' k' n).2 hn, fun _ hr => hr⟩

omit [DecidableEq ι] in
/-- Calls of one screen. -/
theorem Kept.sendAll (h : C.Kept s) (hC : C.Stable) {n : Node} (hn : s.At c k n)
    {es : List Effect} (hes : ∀ r, .request r ∈ es → C.call s n.screen r) :
    C.Kept (s.sendAll c k es) := by
  have he : s.Extends (s.sendAll c k es) := extends_sendAll es
  have hat : ∀ c' k' n', (s.sendAll c k es).At c' k' n' ↔ s.At c' k' n' := by
    intro c' k' n'
    rw [At, clients_sendAll, At]
  refine h.extend hC he (fun f hf => ?_) (fun c' k' n' hn' => .inl ((hat c' k' n').1 hn'))
    fun c' k' n' hn' => ⟨n', (hat c' k' n').2 hn', fun _ hr => hr⟩
  rw [sendAll_eq, List.mem_append, List.mem_map] at hf
  rcases hf with hf | ⟨r, hr, rfl⟩
  · exact .inr ⟨f, hf, .refl f, rfl⟩
  · exact .inl ⟨rfl, n, (hat c k n).2 hn, hC.call he (hes r (mem_requests.1 hr))⟩

/-- A new screen, in whatever container. -/
theorem Kept.push (h : C.Kept s) (hC : C.Stable) {f : Client → Client} {m : Node}
    (hf : (f (s.clients c)).nodes = (s.clients c).nodes ++ [m]) (hm : C.screen s m.screen) :
    C.Kept (s.modify c f) := by
  have he : s.Extends (s.modify c f) := extends_modify fun k' n hn => by
    refine ⟨n, ?_, .refl n⟩
    rw [hf]
    exact List.getElem?_append_left (List.getElem?_eq_some_iff.1 hn).1 ▸ hn
  refine h.extend hC he (fun g hg => .inr ⟨g, hg, .refl g, rfl⟩) (fun c' k' n hn => ?_)
    fun c' k' n hn => ?_
  · rw [At, clients_modify] at hn
    split_ifs at hn with hc
    · rw [hf, List.getElem?_append] at hn
      split_ifs at hn with hlt
      · exact .inl (by rw [At, hc]; exact hn)
      · right
        rw [List.mem_singleton.1 (List.mem_of_getElem? hn)]
        exact hC.screen he hm
    · exact .inl hn
  · refine ⟨n, ?_, fun _ hr => hr⟩
    rw [At, clients_modify]
    split_ifs with hc
    · rw [At, hc] at hn
      rw [hf]
      exact List.getElem?_append_left (List.getElem?_eq_some_iff.1 hn).1 ▸ hn
    · exact hn

/-- The controller of screen `k` changes. -/
theorem Kept.setScreen (h : C.Kept s) (hC : C.Stable) {n : Node} {scr : Screen} (hn : s.At c k n)
    (hk : scr.kind = n.screen.kind) (hscr : C.screen s scr)
    (hcalls : ∀ r, C.call s n.screen r → C.call s scr r) :
    C.Kept (s.modify c fun cl => cl.setScreen k scr) := by
  have he := extends_setScreen hn hk
  have hat : ∀ c' k' n', s.At c' k' n' → (s.modify c fun cl => cl.setScreen k scr).At c' k'
      (if c' = c ∧ k = k' then { n' with screen := scr } else n') := by
    intro c' k' n' hn'
    rw [At, clients_modify]
    by_cases hc : c' = c
    · rw [At, hc] at hn'
      by_cases hkk : k = k' <;> simp [Client.setScreen, hn', hc, hkk]
    · rw [if_neg hc, if_neg fun h => hc h.1]
      exact hn'
  refine ⟨fun c' k' n' hn' => ?_, fun f hf => ?_, fun f hf r hr => ?_⟩
  · rw [At, clients_modify] at hn'
    split_ifs at hn' with hc
    · rw [Client.setScreen, List.getElem?_modify, Option.map_eq_map, Option.map_eq_some_iff] at hn'
      obtain ⟨m, hm, rfl⟩ := hn'
      split_ifs
      · exact hC.screen he hscr
      · exact hC.screen he (h.screens c k' m hm)
    · exact hC.screen he (h.screens c' k' n' hn')
  · obtain ⟨m, hm, hcall⟩ := h.calls f hf
    refine ⟨_, hat _ _ m hm, ?_⟩
    split_ifs with hck
    · rw [hck.1, ← hck.2] at hm
      cases Option.some.inj (hm.symm.trans hn)
      exact hC.call he (hcalls _ hcall)
    · exact hC.call he hcall
  · exact hC.answer he (h.answers f hf r hr)

theorem Kept.openScreen (h : C.Kept s) (hC : C.Stable) {env : Env} {d : Destination}
    {scr : Screen} (hd : C.Permits s scr (.segue d)) : C.Kept (s.openScreen c k env d) := by
  unfold System.openScreen
  split
  · exact h.modify hC rfl
  · next screen es hload =>
    obtain ⟨hscr, hcalls⟩ := hd _ _ _ hload
    have hpush : C.Kept (s.modify c fun cl => cl.openScreen k screen) := h.push hC rfl hscr
    have he : s.Extends (s.modify c fun cl => cl.openScreen k screen) :=
      extends_modify fun k' n hn => ⟨n, push_keeps _ (some k) screen k' n hn, .refl n⟩
    refine hpush.sendAll hC (n := ⟨(s.clients c).front, some k, (s.clients c).currentUser, screen⟩)
      ?_ fun r hr => hC.call he (hcalls r hr)
    rw [At, clients_modify, if_pos rfl]
    exact List.getElem?_concat_length

end Primitives

/-! ## Steps -/

section Steps

variable {ι : Type} [DecidableEq ι] {C : Contract ι} {s t : System ι} {c : ι} {k : ℕ}

theorem Kept.enterHome (h : C.Kept s) (hC : C.Sound) (entrance : Entrance) :
    C.Kept (s.enterHome c entrance) := by
  have hentry : C.Kept ({ s with entries := s.entries ++
      [HomeEntry.mk c entrance (s.clients c).currentUser] } : System ι) :=
    h.extend hC.toStable (extends_entries _) (fun f hf => .inr ⟨f, hf, .refl f, rfl⟩)
      (fun _ _ _ hn => .inl hn) fun _ _ n hn => ⟨n, hn, fun _ hr => hr⟩
  -- the two screens one after the other
  have htab := @Kept.push ι _ C _ c hentry hC.toStable
    (fun cl => ({ cl with front := cl.front + 1, top := none } : Client).push none
      (.tabBar false false)) _ rfl (hC.tabBar _)
  have hhome := @Kept.push ι _ C _ c htab hC.toStable
    (fun cl => cl.push (some (s.clients c).nodes.length)
      (.home HomeViewController.viewDidLoad.1)) _ rfl (hC.home _).1
  have hshow : C.Kept (({ s with entries := s.entries ++
      [HomeEntry.mk c entrance (s.clients c).currentUser] } : System ι).modify c
        Client.showHome) := by
    convert hhome using 1
    simp only [System.modify, Function.update_idem, Function.update_self]
    rfl
  refine hshow.sendAll hC.toStable (n := ⟨(s.clients c).front + 1, some (s.clients c).nodes.length,
    (s.clients c).currentUser, .home HomeViewController.viewDidLoad.1⟩) ?_ (hC.home _).2
  rw [At, clients_modify, if_pos rfl]
  simp [Client.showHome, Client.push]

theorem Kept.enterInitial (h : C.Kept s) (hC : C.Sound) : C.Kept (s.enterInitial c) := by
  have hshow : C.Kept (s.modify c Client.showInitial) := h.push hC.toStable rfl (hC.initial s)
  unfold System.enterInitial
  split_ifs
  · exact hshow
  · exact hshow.enterHome hC _

theorem Kept.performOne (h : C.Kept s) (hC : C.Sound) {n : Node} (hn : s.At c k n) {env : Env}
    {e : Effect} (he : C.Permits s n.screen e) : C.Kept (s.performOne c k env e) := by
  cases e <;> simp only [System.performOne]
  case request r =>
    refine @Kept.sendAll ι C s c k h hC.toStable n hn [.request r] fun r' hr' => ?_
    cases List.mem_singleton.1 hr'
    exact he
  case segue d => exact h.openScreen hC.toStable he
  case goToHome =>
    split_ifs
    · exact h.enterHome hC _
    · exact h
  case presentInitial => exact h.enterInitial hC
  all_goals exact h.modify hC.toStable rfl

/-- A screen that changes no more during the effects of its handler. -/
theorem at_performOne {n : Node} (hn : s.At c k n) (env : Env) (e : Effect) :
    (s.performOne c k env e).At c k n := by
  have hpush : ∀ {u : System ι} {f : Client → Client}, u.At c k n →
      (∃ l, (f (u.clients c)).nodes = (u.clients c).nodes ++ l) → (u.modify c f).At c k n := by
    rintro u f hu ⟨l, hl⟩
    rw [At, clients_modify, if_pos rfl, hl]
    exact List.getElem?_append_left (List.getElem?_eq_some_iff.1 hu).1 ▸ hu
  have hhome : ∀ {u : System ι} {entrance : Entrance}, u.At c k n →
      (u.enterHome c entrance).At c k n := by
    intro u entrance hu
    rw [At, clients_enterHome, if_pos rfl]
    exact push_keeps _ _ _ k n (push_keeps _ none (.tabBar false false) k n hu)
  cases e <;> simp only [System.performOne]
  case request r => exact hn
  case segue d =>
    unfold System.openScreen
    split
    · exact hpush hn ⟨[], by simp⟩
    · rw [At, clients_sendAll]
      exact hpush hn ⟨_, rfl⟩
  case goToHome =>
    split_ifs
    · exact hhome hn
    · exact hn
  case presentInitial =>
    unfold System.enterInitial
    split_ifs
    · exact hpush hn ⟨_, rfl⟩
    · exact hhome (hpush hn ⟨_, rfl⟩)
  all_goals exact hpush hn ⟨[], by simp⟩

/-- **The rule for a handler.** -/
theorem Kept.handle (h : C.Kept s) (hC : C.Sound) {n : Node} (hn : s.At c k n) {env : Env}
    {res : Except Fault (After Screen)}
    (hres : ∀ scr' es, res = .ok (scr', es) →
      scr'.kind = n.screen.kind ∧ C.Allows s n.screen scr' es) :
    C.Kept (s.handle c k env res) := by
  cases res with
  | error x =>
    rw [System.handle, System.crash]
    exact h.modify hC.toStable rfl
  | ok x =>
    obtain ⟨scr', es⟩ := x
    obtain ⟨hk, hall⟩ := hres scr' es rfl
    have he := extends_setScreen (c := c) hn hk
    have hset := h.setScreen hC.toStable hn hk hall.screen (hall.calls s)
    have hat : (s.modify c fun cl => cl.setScreen k scr').At c k { n with screen := scr' } := by
      rw [At] at hn
      simp [At, Client.setScreen, hn]
    -- every effect finds the screen as the handler has left it
    have hloop : C.Kept (s.handle c k env (.ok (scr', es))) ∧
        (s.handle c k env (.ok (scr', es))).At c k { n with screen := scr' } ∧
        s.Extends (s.handle c k env (.ok (scr', es))) := by
      refine perform_induct
        (P := fun u => C.Kept u ∧ u.At c k { n with screen := scr' } ∧ s.Extends u)
        _ c k ⟨hset, hat, he⟩ fun u e hmem hu => ?_
      obtain ⟨hu, hua, hue⟩ := hu
      exact ⟨hu.performOne hC hua (hC.permits hue (hall.effects e hmem)), at_performOne hua env e,
        hue.trans (extends_performOne env e)⟩
    exact hloop.1

omit [DecidableEq ι] in
theorem Kept.draw (h : C.Kept s) (hC : C.Stable) (a : Action) (env : Env) :
    C.Kept (s.draw a env) := by
  refine h.extend hC (extends_draw a env) (fun f hf => .inr ⟨f, ?_, .refl f, rfl⟩)
    (fun c k n hn => .inl ?_) fun c k n hn => ⟨n, ?_, fun _ hr => hr⟩
  · unfold System.draw at hf
    split_ifs at hf <;> exact hf
  · rwa [At, clients_draw] at hn
  · rwa [At, clients_draw]

theorem Kept.act (h : C.Kept s) (hC : C.Sound) (hreach : (machine ι).Reachable s) {a : Action}
    {env : Env} (hs : s.act c k a env = some t) : C.Kept t := by
  obtain ⟨n, res, hn, -, -, hfresh, hact, rfl⟩ := act_cases hs
  have hdraw := h.draw hC.toStable a env
  refine hdraw.handle hC (n := n) (by rwa [At, clients_draw]) fun scr' es hr => ?_
  subst hr
  exact ⟨(Screen.act_spec hact).1, hC.act hreach hn
    (hC.screen (extends_draw a env) (h.screens c k n hn)) hfresh hact⟩

theorem Kept.serve (h : C.Kept s) (hC : C.Sound) (hreach : (machine ι).Reachable s) {i : ℕ}
    {a : Answer} (hs : s.serve i a = some t) : C.Kept t := by
  have he := extends_serve hs
  obtain ⟨f, u, r, hi, -, hserved, net, rfl, hnet⟩ := serve_cases hs
  have hf := List.mem_of_getElem? hi
  have hans := hC.serve hreach h hf hserved
  obtain ⟨hc, hn, -⟩ := hserved.frame
  have hmem : ∀ g ∈ net, g ∈ s.net ∨ g = { f with reply := some r } := by
    intro g hg
    rcases hnet with rfl | ⟨rfl, -⟩
    · exact (List.mem_or_eq_of_mem_set hg).imp_left fun hg => hn ▸ hg
    · rcases List.mem_append.1 hg with hg | hg
      · exact .inl (hn ▸ hg)
      · exact .inr (List.mem_singleton.1 hg)
  have hat : ∀ c k n, ({ u with net := net } : System ι).At c k n ↔ s.At c k n := by
    intro c k n
    rw [At, show ({ u with net := net } : System ι).clients = u.clients from rfl, hc, At]
  refine ⟨fun c k n hn => hC.screen he (h.screens c k n ((hat c k n).1 hn)), fun g hg => ?_,
    fun g hg r' hr' => ?_⟩
  · obtain ⟨g₀, hg₀, hcl, hnd, hreq⟩ : ∃ g₀ ∈ s.net, g.client = g₀.client ∧ g.node = g₀.node ∧
        g.request = g₀.request := by
      rcases hmem g hg with hg | rfl
      · exact ⟨g, hg, rfl, rfl, rfl⟩
      · exact ⟨f, hf, rfl, rfl, rfl⟩
    obtain ⟨n, hn, hcall⟩ := h.calls g₀ hg₀
    rw [hcl, hnd, hreq]
    exact ⟨n, (hat _ _ _).2 hn, hC.call he hcall⟩
  · rcases hmem g hg with hg | rfl
    · exact hC.answer he (h.answers g hg r' hr')
    · cases hr'
      exact hC.answer he hans

theorem Kept.deliver (h : C.Kept s) (hC : C.Sound) (hreach : (machine ι).Reachable s)
    {i date : ℕ} (hs : s.deliver i date = some t) : C.Kept t := by
  obtain ⟨f, r, hi, hr, -, hcase⟩ := deliver_cases hs
  have hf := List.mem_of_getElem? hi
  have hmark : C.Kept (s.mark i f) := by
    refine h.extend hC.toStable (extends_mark hi) (fun g hg => .inr ?_) (fun _ _ _ hn => .inl hn)
      fun _ _ n hn => ⟨n, hn, fun _ hr => hr⟩
    rcases List.mem_or_eq_of_mem_set hg with hg | rfl
    · exact ⟨g, hg, .refl g, rfl⟩
    · exact ⟨f, hf, ⟨rfl, rfl, rfl, rfl, rfl, fun _ hr => hr, fun _ => rfl⟩, rfl⟩
  rcases hcase with ⟨-, rfl⟩ | ⟨-, u, rfl, hs'⟩
  · exact hmark
  have hsign : C.Kept ((s.mark i f).signIn f.client r) := by
    unfold System.signIn
    split
    · exact hmark.modify hC.toStable rfl
    · exact hmark
  rcases hs' with ⟨rfl, -⟩ | ⟨k, n, res, hk, hn, hres, rfl⟩
  · exact hsign
  have hn₀ : s.At f.client f.node n := by
    unfold System.signIn at hn
    split at hn
    · rwa [At, clients_modify, if_pos rfl] at hn
    · exact hn
  have he : s.Extends ((s.mark i f).signIn f.client r) := (extends_mark hi).trans (extends_signIn r)
  refine hsign.handle hC hn fun scr' es hr' => ?_
  subst hr'
  have hall := hC.receive hreach h hf hr hk hn₀ hres
  exact ⟨Screen.receive_kind hres, hC.screen he hall.screen, hall.calls,
    fun e hmem => hC.permits he (hall.effects e hmem)⟩

theorem Kept.step (h : C.Kept s) (hC : C.Sound) (hreach : (machine ι).Reachable s) {e : Event ι}
    (hs : s.step e = some t) : C.Kept t := by
  cases e with
  | launch c =>
    cases hs
    exact Kept.enterInitial (h.modify hC.toStable rfl) hC
  | act c k a env => exact h.act hC hreach hs
  | serve i a => exact h.serve hC hreach hs
  | deliver i date => exact h.deliver hC hreach hs
  | setMod uid mod =>
    have he := step_extends hs
    cases hs
    exact h.extend hC.toStable he (fun f hf => .inr ⟨f, hf, .refl f, rfl⟩) (fun _ _ _ hn => .inl hn)
      fun _ _ n hn => ⟨n, hn, fun _ hr => hr⟩

/-- **A sound contract is kept** in every reachable state. -/
theorem Sound.kept (hC : C.Sound) (h : (machine ι).Reachable s) : C.Kept s := by
  refine h.induct (fun s h₀ => ?_) fun s e t hvia hi _ hs => hi.step hC hvia hs
  refine ⟨fun c k n hn => ?_, by simp [h₀.net], by simp [h₀.net]⟩
  rw [At, h₀.clients c] at hn
  cases hn

end Steps

end Contract

end System

end ArtsExplorer
