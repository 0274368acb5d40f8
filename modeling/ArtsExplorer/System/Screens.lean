import ArtsExplorer.System.Navigation

/-!
# What happens to a screen

A step does little to the screens. What is done elsewhere leaves a screen as it is, with its calls,
or opens it (`Spares`). So a screen that is there stays as it is, unless its own handler has run:
for an action on it, or for an answer to a call of its own that is delivered to a living process
(`Turns`). Every other screen is new (`screen_of_step`).
-/

namespace ArtsExplorer

open Foundations

/-- A screen as it is created. -/
inductive Screen.Created : Screen → Prop
  | initial : Created .initial
  | tabBar : Created (.tabBar false false)
  | home : Created (.home HomeViewController.viewDidLoad.1)
  | loaded {env : Env} {d : Destination} {scr : Screen} {rs : List Request}
      (h : Loaded env d scr rs) : Created scr

/-- A screen as it is opened, with what it calls. -/
inductive Screen.Opened : Screen → List Effect → Prop
  | initial : Opened .initial []
  | tabBar : Opened (.tabBar false false) []
  | home : Opened (.home HomeViewController.viewDidLoad.1) HomeViewController.viewDidLoad.2
  | loaded {env : Env} {d : Destination} {scr : Screen} {es : List Effect}
      (h : Screen.load env d = .ok (scr, es)) : Opened scr es

theorem Screen.Opened.created {scr : Screen} {es : List Effect} (h : scr.Opened es) :
    scr.Created := by
  cases h with
  | initial => exact .initial
  | tabBar => exact .tabBar
  | home => exact .home
  | loaded h =>
    obtain ⟨rs, hloaded, -⟩ := Screen.load_loaded h
    exact .loaded hloaded

/-- The calls among some effects. -/
def unanswered (es : List Effect) : List (Request × Option Reply) := (requests es).map (·, none)

/-- What is seen of a call on its screen: the answer, once it has been handed over; and the launch
it was made in. -/
def Flight.seen {ι : Type} (f : Flight ι) : ℕ × Request × Option Reply :=
  (f.epoch, f.request, if f.delivered then f.reply else none)

namespace System

variable {ι : Type} [DecidableEq ι] {s t u : System ι} {c c' : ι} {k k' : ℕ}

/-- What the step on event `e` makes of screen `k` of device `c`. -/
inductive Turns (s : System ι) (e : Event ι) (c : ι) (k : ℕ) (scr scr' : Screen) : Prop
  | stays (h : scr' = scr)
  | acts {a : Action} {env : Env} {es : List Effect} (he : e = .act c k a env)
      (h : scr.act (s.seenBy c env) a = some (.ok (scr', es)))
  | hears {i date : ℕ} {f : Flight ι} {kb : Callback} {r : Reply} {env : Env} {es : List Effect}
      (he : e = .deliver i date) (hi : s.net[i]? = some f) (hc : f.client = c) (hk : f.node = k)
      (halive : s.Alive f) (hfresh : f.delivered = false) (hkb : f.request.callback = some kb)
      (hr : f.reply = some r) (h : scr.receive env kb r = some (.ok (scr', es)))

/-- Screen `k` of device `c` is new: there was none, and `n` has been created. -/
def Opens (s : System ι) (c : ι) (k : ℕ) (n : Node) : Prop :=
  (∀ m, ¬ s.At c k m) ∧ n.screen.Created

/-! ## The calls of a screen -/

/-- What screen `k` of device `c` sees of a call, if it has made it. -/
def seenOn (c : ι) (k : ℕ) (f : Flight ι) : Option (ℕ × Request × Option Reply) :=
  if f.client = c ∧ f.node = k then some f.seen else none

/-- The calls of screen `k` of device `c`. -/
def callsOf (s : System ι) (c : ι) (k : ℕ) : List (ℕ × Request × Option Reply) :=
  s.net.filterMap (seenOn c k)

/-- The calls `x` as device `c` has made them since it was launched. -/
def launched (s : System ι) (c : ι) (x : List (Request × Option Reply)) :
    List (ℕ × Request × Option Reply) :=
  x.map ((s.clients c).epoch, ·)

/-! ## What happens elsewhere -/

/-- What is done between `s` and `t` is nothing to screen `k` of device `c`: it stays as it is with
its calls, or it is opened and makes its first calls. -/
structure Spares (s t : System ι) (c : ι) (k : ℕ) : Prop where
  kept : ∀ n, s.At c k n → t.At c k n ∧ t.callsOf c k = s.callsOf c k
  opened : (∀ n, ¬ s.At c k n) →
    ((∀ n, ¬ t.At c k n) ∧ t.callsOf c k = s.callsOf c k) ∨ ∃ n es, t.At c k n ∧
      n.screen.Opened es ∧ t.callsOf c k = s.callsOf c k ++ t.launched c (unanswered es)
  epoch : (t.clients c).epoch = (s.clients c).epoch
  running : (t.clients c).running = true → (s.clients c).running = true

section Spares

omit [DecidableEq ι] in
theorem launched_congr (h : (t.clients c).epoch = (s.clients c).epoch) :
    t.launched c = s.launched c := by
  funext x
  rw [launched, launched, h]

theorem Spares.refl (s : System ι) (c : ι) (k : ℕ) : s.Spares s c k :=
  ⟨fun _ h => ⟨h, rfl⟩, fun h => .inl ⟨h, rfl⟩, rfl, id⟩

theorem Spares.trans (h₁ : s.Spares t c k) (h₂ : t.Spares u c k) : s.Spares u c k where
  kept n hn := by
    obtain ⟨ht, hcalls⟩ := h₁.kept n hn
    obtain ⟨hu, hcalls'⟩ := h₂.kept n ht
    exact ⟨hu, hcalls'.trans hcalls⟩
  opened hs := by
    rcases h₁.opened hs with ⟨ht, hcalls⟩ | ⟨n, es, hn, hopened, hcalls⟩
    · rw [← hcalls]
      exact h₂.opened ht
    · obtain ⟨hu, hcalls'⟩ := h₂.kept n hn
      refine .inr ⟨n, es, hu, hopened, ?_⟩
      rw [hcalls', hcalls, launched_congr h₂.epoch]
  epoch := h₂.epoch.trans h₁.epoch
  running h := h₁.running (h₂.running h)

/-- A change of a device that leaves its screens alone. -/
theorem at_modify {f : Client → Client}
    (hnodes : (f (s.clients c')).nodes = (s.clients c').nodes) {n : Node} :
    (s.modify c' f).At c k n ↔ s.At c k n := by
  rw [At, At, clients_modify]
  split_ifs with hc
  · rw [hnodes, hc]
  · exact Iff.rfl

theorem spares_modify {f : Client → Client}
    (hnodes : (f (s.clients c')).nodes = (s.clients c').nodes)
    (hepoch : (f (s.clients c')).epoch = (s.clients c').epoch)
    (hrunning : (f (s.clients c')).running = true → (s.clients c').running = true) :
    s.Spares (s.modify c' f) c k := by
  refine ⟨fun n hn => ⟨(at_modify hnodes).2 hn, rfl⟩,
    fun h => .inl ⟨fun n hn => h n ((at_modify hnodes).1 hn), rfl⟩, ?_, ?_⟩
  · rw [clients_modify]
    split_ifs with hc
    · rw [hepoch, hc]
    · rfl
  · rw [clients_modify]
    split_ifs with hc
    · rw [hc]
      exact hrunning
    · exact id

/-- Calls that other screens make. -/
theorem callsOf_send_of_ne (rs : List Request) (h : ¬ (c' = c ∧ k' = k)) :
    ({ s with net := s.net ++ rs.map (s.flight c' k') } : System ι).callsOf c k =
      s.callsOf c k := by
  rw [callsOf, List.filterMap_append, callsOf]
  refine (congrArg _ ?_).trans (List.append_nil _)
  rw [List.filterMap_eq_nil_iff]
  intro f hf
  obtain ⟨r, -, rfl⟩ := List.mem_map.1 hf
  exact if_neg h

/-- Calls that the screen makes. -/
theorem callsOf_send (es : List Effect) :
    ({ s with net := s.net ++ (requests es).map (s.flight c k) } : System ι).callsOf c k =
      s.callsOf c k ++ s.launched c (unanswered es) := by
  rw [callsOf, List.filterMap_append, callsOf, launched, unanswered, List.map_map,
    List.filterMap_map]
  refine congrArg _ ?_
  rw [← List.filterMap_eq_map]
  refine List.filterMap_congr fun r _ => ?_
  simp [seenOn, flight, Flight.seen]

theorem spares_send (rs : List Request) (h : ¬ (c' = c ∧ k' = k)) :
    s.Spares { s with net := s.net ++ rs.map (s.flight c' k') } c k := by
  have hcalls := callsOf_send_of_ne rs h (s := s)
  exact ⟨fun n hn => ⟨hn, hcalls⟩, fun h => .inl ⟨h, hcalls⟩, rfl, id⟩

/-- New screens of a device, of which screen `k'` makes calls. -/
theorem spares_create {f : Client → Client} (new : List Node) (es : List Effect)
    (hnodes : (f (s.clients c')).nodes = (s.clients c').nodes ++ new)
    (hepoch : (f (s.clients c')).epoch = (s.clients c').epoch)
    (hrunning : (f (s.clients c')).running = (s.clients c').running)
    (hk : (s.clients c').nodes.length ≤ k') (hcalls : k' < (f (s.clients c')).nodes.length)
    (hnew : ∀ j (n : Node), new[j]? = some n →
      n.screen.Opened (if (s.clients c').nodes.length + j = k' then es else [])) :
    s.Spares ((s.modify c' f).sendAll c' k' es) c k := by
  have hepoch' : ((s.modify c' f).clients c).epoch = (s.clients c).epoch := by
    rw [clients_modify]
    split_ifs with hc
    · rw [hepoch, hc]
    · rfl
  have hrunning' : ((s.modify c' f).clients c).running = (s.clients c).running := by
    rw [clients_modify]
    split_ifs with hc
    · rw [hrunning, hc]
    · rfl
  have hother : ∀ n, s.At c k n → ¬ (c' = c ∧ k' = k) := by
    rintro n hn ⟨rfl, rfl⟩
    exact absurd (List.getElem?_eq_some_iff.1 hn).1 (Nat.not_lt.2 hk)
  rw [sendAll_eq]
  refine ⟨fun n hn => ⟨?_, callsOf_send_of_ne _ (hother n hn)⟩, fun hno => ?_, hepoch',
    fun h => hrunning' ▸ h⟩
  · change (s.modify c' f).At c k n
    rw [At, clients_modify]
    split_ifs with hc
    · subst hc
      rw [hnodes]
      exact List.getElem?_append_left (List.getElem?_eq_some_iff.1 hn).1 ▸ hn
    · exact hn
  by_cases hc : c' = c
  · subst hc
    have hle : (s.clients c').nodes.length ≤ k := by
      by_contra hlt
      exact hno _ (List.getElem?_eq_getElem (Nat.lt_of_not_le hlt))
    have hat : ∀ n, (s.modify c' f).At c' k n ↔ new[k - (s.clients c').nodes.length]? = some n := by
      intro n
      rw [At, clients_modify, if_pos rfl, hnodes, List.getElem?_append_right hle]
    cases hnode : new[k - (s.clients c').nodes.length]? with
    | none =>
      refine .inl ⟨fun n hn => ?_, ?_⟩
      · rw [(hat n).1 hn] at hnode
        cases hnode
      · refine callsOf_send_of_ne _ ?_
        rintro ⟨-, rfl⟩
        have hlen := List.getElem?_eq_none_iff.1 hnode
        rw [hnodes, List.length_append] at hcalls
        omega
    | some n =>
      have hopened := hnew _ n hnode
      rw [Nat.add_sub_cancel' hle] at hopened
      refine .inr ⟨n, _, (hat n).2 hnode, hopened, ?_⟩
      split_ifs with hkk
      · subst hkk
        exact callsOf_send es
      · exact (callsOf_send_of_ne _ fun h => hkk h.2.symm).trans (List.append_nil _).symm
  · refine .inl ⟨fun n hn => hno n ?_, callsOf_send_of_ne _ fun h => hc h.1⟩
    change (s.modify c' f).At c k n at hn
    rw [At, clients_modify, if_neg (Ne.symm hc)] at hn
    exact hn

theorem spares_openScreen (env : Env) (d : Destination) :
    s.Spares (s.openScreen c' k' env d) c k := by
  unfold openScreen
  split
  · exact spares_modify rfl rfl fun h => by cases h
  · next screen es hload =>
    refine spares_create [⟨(s.clients c').front, some k', (s.clients c').currentUser, screen⟩] es
      rfl rfl rfl le_rfl ?_ fun j n hn => ?_
    · simp [Client.openScreen, Client.push]
    · cases j with
      | zero =>
        cases hn
        rw [Nat.add_zero, if_pos rfl]
        exact .loaded hload
      | succ j => cases hn

theorem spares_enterHome (entrance : Entrance) : s.Spares (s.enterHome c' entrance) c k := by
  have hentries : s.Spares
      { s with entries := s.entries ++ [⟨c', entrance, (s.clients c').currentUser⟩] } c k :=
    ⟨fun n hn => ⟨hn, rfl⟩, fun h => .inl ⟨h, rfl⟩, rfl, id⟩
  refine hentries.trans (spares_create [
      ⟨(s.clients c').front + 1, none, (s.clients c').currentUser, .tabBar false false⟩,
      ⟨(s.clients c').front + 1, some (s.clients c').nodes.length, (s.clients c').currentUser,
        .home HomeViewController.viewDidLoad.1⟩] HomeViewController.viewDidLoad.2
    (by simp [Client.showHome, Client.push]) rfl rfl (Nat.le_succ _) ?_ fun j n hn => ?_)
  · simp [Client.showHome, Client.push]
  · rcases j with _ | _ | j
    · cases hn
      rw [if_neg (Nat.succ_ne_self _).symm]
      exact .tabBar
    · cases hn
      rw [if_pos rfl]
      exact .home
    · cases hn

theorem spares_enterInitial : s.Spares (s.enterInitial c') c k := by
  have hshow : s.Spares (s.modify c' Client.showInitial) c k := by
    have hlast : (s.clients c').nodes.length <
        (Client.showInitial (s.clients c')).nodes.length := by
      simp [Client.showInitial, Client.push]
    refine spares_create [
      ⟨(s.clients c').front + 1, none, (s.clients c').currentUser, .initial⟩] [] rfl rfl rfl le_rfl
      hlast fun j n hn => ?_
    cases j with
    | zero =>
      cases hn
      rw [ite_self]
      exact .initial
    | succ j => cases hn
  unfold enterInitial
  split_ifs
  · exact hshow
  · exact hshow.trans (spares_enterHome _)

/-- An effect of a screen is nothing to the others, and a call is all that it is to the screen. -/
theorem spares_performOne (env : Env) {e : Effect}
    (h : (∀ r, e ≠ .request r) ∨ ¬ (c' = c ∧ k' = k)) :
    s.Spares (s.performOne c' k' env e) c k := by
  cases e <;> simp only [performOne]
  case request r => exact spares_send [r] (h.resolve_left fun hr => hr r rfl)
  case segue d => exact spares_openScreen env d
  case goToHome =>
    split_ifs
    · exact spares_enterHome _
    · exact .refl s c k
  case presentInitial => exact spares_enterInitial
  all_goals exact spares_modify rfl rfl id

theorem spares_perform (env : Env) (es : List Effect) (h : ¬ (c' = c ∧ k' = k)) :
    s.Spares (perform env s c' k' es) c k :=
  perform_induct (P := fun t => s.Spares t c k) s c' k' (.refl s c k) fun _ _ _ hs =>
    hs.trans (spares_performOne env (.inr h))

theorem spares_handle (env : Env) (r : Except Fault (After Screen)) (h : ¬ (c' = c ∧ k' = k)) :
    s.Spares (s.handle c' k' env r) c k := by
  cases r with
  | error f =>
    rw [handle, crash]
    exact spares_modify rfl rfl fun h => by cases h
  | ok x =>
    refine Spares.trans ?_ (spares_perform env x.2 h)
    have hat : ∀ n, (s.modify c' fun cl => cl.setScreen k' x.1).At c k n ↔ s.At c k n := by
      intro n
      rw [At, At, clients_modify]
      split_ifs with hc
      · subst hc
        have hk : k' ≠ k := fun hk => h ⟨rfl, hk⟩
        simp [Client.setScreen, hk]
      · exact Iff.rfl
    refine ⟨fun n hn => ⟨(hat n).2 hn, rfl⟩,
      fun h => .inl ⟨fun n hn => h n ((hat n).1 hn), rfl⟩, ?_, ?_⟩
    · rw [clients_modify]
      split_ifs with hc
      · rw [hc]
        rfl
      · rfl
    · rw [clients_modify]
      split_ifs with hc
      · rw [hc]
        exact id
      · exact id

end Spares

/-- The effects of a handler of the screen: it stays there, and has made the calls. -/
theorem perform_own (env : Env) (es : List Effect) {n : Node} (hn : s.At c k n) :
    (perform env s c k es).At c k n ∧
      (perform env s c k es).callsOf c k = s.callsOf c k ++ s.launched c (unanswered es) ∧
        ((perform env s c k es).clients c).epoch = (s.clients c).epoch ∧
          (((perform env s c k es).clients c).running = true → (s.clients c).running = true) := by
  induction es generalizing s with
  | nil => exact ⟨hn, (List.append_nil _).symm, rfl, id⟩
  | cons e es ih =>
    by_cases he : ∃ r, e = .request r
    · obtain ⟨r, rfl⟩ := he
      have hcalls : (s.send c k r).callsOf c k = s.callsOf c k ++ s.launched c [(r, none)] :=
        callsOf_send [.request r]
      obtain ⟨hat, hcalls', hepoch, hrunning⟩ := ih (s := s.send c k r) hn
      refine ⟨hat, ?_, hepoch, hrunning⟩
      rw [perform, performOne, hcalls', hcalls, List.append_assoc]
      rfl
    · have hspares : s.Spares (s.performOne c k env e) c k :=
        spares_performOne env (.inl fun r hr => he ⟨r, hr⟩)
      obtain ⟨hn', hsame⟩ := hspares.kept n hn
      obtain ⟨hat, hcalls, hepoch, hrunning⟩ := ih hn'
      refine ⟨hat, ?_, hepoch.trans hspares.epoch, fun h => hspares.running (hrunning h)⟩
      have hes : unanswered (e :: es) = unanswered es := by
        cases e <;> first | rfl | exact absurd ⟨_, rfl⟩ he
      rw [perform, hcalls, hsame, launched_congr hspares.epoch, hes]

theorem at_setScreen {n : Node} (hn : s.At c k n) (scr : Screen) :
    (s.modify c fun cl => cl.setScreen k scr).At c k { n with screen := scr } := by
  rw [At] at hn
  rw [At, clients_modify, if_pos rfl, Client.setScreen, List.getElem?_modify, hn]
  simp

/-- Signing a user in is nothing to the screens. -/
theorem spares_signIn (r : Reply) : s.Spares (s.signIn c' r) c k := by
  unfold signIn
  split
  · exact spares_modify rfl rfl id
  · exact .refl s c k

/-! ## Steps -/

omit [DecidableEq ι] in
/-- What is new later is new. -/
theorem Opens.of_extends {n : Node} (h : t.Opens c k n) (he : s.Extends t) : s.Opens c k n := by
  refine ⟨fun m hm => ?_, h.2⟩
  obtain ⟨m', hm', -⟩ := he.nodes c k m hm
  exact h.1 m' hm'

/-- What is done elsewhere opens screens at most. -/
theorem Spares.at (h : s.Spares t c k) {n : Node} (hn : t.At c k n) :
    s.At c k n ∨ s.Opens c k n := by
  by_cases hs : ∃ m, s.At c k m
  · obtain ⟨m, hm⟩ := hs
    cases Option.some.inj ((h.kept m hm).1.symm.trans hn)
    exact .inl hm
  · have hno : ∀ m, ¬ s.At c k m := fun m hm => hs ⟨m, hm⟩
    rcases h.opened hno with ⟨ht, -⟩ | ⟨m, es, hm, hopened, -⟩
    · exact absurd hn (ht n)
    · cases Option.some.inj (hm.symm.trans hn)
      exact .inr ⟨hno, hopened.created⟩

/-- **A handler** of screen `k'` changes no other screen. -/
theorem at_of_handle {env : Env} {res : Except Fault (After Screen)} {n m : Node}
    (hm : s.At c' k' m) (h : (s.handle c' k' env res).At c k n) :
    s.At c k n ∨ s.Opens c k n ∨ c' = c ∧ k' = k ∧ ∃ es, res = .ok (n.screen, es) := by
  by_cases hck : c' = c ∧ k' = k
  · obtain ⟨rfl, rfl⟩ := hck
    cases res with
    | error f =>
      rw [handle, crash] at h
      exact .inl ((at_modify rfl).1 h)
    | ok x =>
      have hat := (perform_own env x.2 (at_setScreen hm x.1)).1
      cases Option.some.inj (hat.symm.trans h)
      exact .inr (.inr ⟨rfl, rfl, x.2, rfl⟩)
  · exact ((spares_handle env res hck).at h).imp_right .inl

/-- **What a step does to the screens.** -/
theorem screen_of_step {e : Event ι} (hs : s.step e = some t) {n : Node} (hn : t.At c k n) :
    s.Opens c k n ∨ ∃ m, s.At c k m ∧ s.Turns e c k m.screen n.screen := by
  cases e with
  | launch c₀ =>
    cases hs
    rcases spares_enterInitial.at hn with hn | hn
    · exact .inr ⟨n, (at_modify rfl).1 hn, .stays rfl⟩
    · exact .inl (hn.of_extends (extends_modify_of_nodes rfl))
  | act c₀ k₀ a env =>
    obtain ⟨m₀, res, hm₀, -, -, -, hact, rfl⟩ := act_cases hs
    have hdraw : ∀ {c : ι} {k : ℕ} {m : Node}, (s.draw a env).At c k m ↔ s.At c k m := by
      intro c k m
      rw [At, At, clients_draw]
    rcases at_of_handle (hdraw.2 hm₀) hn with hn | hnew | ⟨rfl, rfl, es, rfl⟩
    · exact .inr ⟨n, hdraw.1 hn, .stays rfl⟩
    · exact .inl (hnew.of_extends (extends_draw a env))
    · exact .inr ⟨m₀, hm₀, .acts rfl hact⟩
  | serve i a =>
    obtain ⟨f, u, r, -, -, hserved, net, rfl, -⟩ := serve_cases hs
    rw [At, hserved.frame.1] at hn
    exact .inr ⟨n, hn, .stays rfl⟩
  | deliver i date =>
    obtain ⟨f, r, hi, hr, hfresh, ⟨-, rfl⟩ | ⟨halive, u, rfl, hcase⟩⟩ := deliver_cases hs
    · exact .inr ⟨n, hn, .stays rfl⟩
    have hsign : ∀ {c : ι} {k : ℕ} {m : Node},
        ((s.mark i f).signIn f.client r).At c k m → s.At c k m := by
      intro c k m hm
      unfold signIn at hm
      split at hm
      · have hmark : (s.mark i f).At c k m := (at_modify rfl).1 hm
        exact hmark
      · exact hm
    rcases hcase with ⟨rfl, -⟩ | ⟨kb, m₀, res, hkb, hm₀, hres, rfl⟩
    · exact .inr ⟨n, hsign hn, .stays rfl⟩
    · rcases at_of_handle hm₀ hn with hn | hnew | ⟨rfl, rfl, es, rfl⟩
      · exact .inr ⟨n, hsign hn, .stays rfl⟩
      · exact .inl (hnew.of_extends ((extends_mark hi).trans (extends_signIn r)))
      · exact .inr ⟨m₀, hsign hm₀, .hears rfl hi rfl rfl halive hfresh hkb hr hres⟩
  | setMod uid mod =>
    cases hs
    exact .inr ⟨n, hn, .stays rfl⟩

end System

end ArtsExplorer
