import ArtsExplorer.System.History

/-!
# What every handler respects

Calls are made, and processes end by a fault, in handlers only. So what holds of the calls and
faults of every handler (`Respects`) holds of every call in the net and of every device's fault
(`Lawful.step`), wherever the handlers run: an action, a closure, or the `viewDidLoad` of a screen
that a segue or a launch creates.
-/

namespace ArtsExplorer

open Foundations

/-- A handler's calls meet `P`; if it fails instead, its fault meets `Q`. -/
def Respects (P : Request → Prop) (Q : Fault → Prop) : Except Fault (After Screen) → Prop
  | .error x => Q x
  | .ok (_, es) => ∀ r, .request r ∈ es → P r

namespace System

variable {ι : Type} {s t : System ι} {c : ι} {k : ℕ} {P : Request → Prop} {Q : Fault → Prop}

/-- The calls in the net meet `P`, and the faults that ended processes meet `Q`. -/
structure Lawful (P : Request → Prop) (Q : Fault → Prop) (s : System ι) : Prop where
  calls : ∀ f ∈ s.net, P f.request
  faults : ∀ c x, (s.clients c).fault = some x → Q x

theorem Lawful.sendAll (h : s.Lawful P Q) {es : List Effect} (hes : ∀ r, .request r ∈ es → P r) :
    (s.sendAll c k es).Lawful P Q := by
  refine ⟨fun f hf => ?_, fun c' x hx => h.faults c' x (by rwa [clients_sendAll] at hx)⟩
  rw [sendAll_eq, List.mem_append, List.mem_map] at hf
  rcases hf with hf | ⟨r, hr, rfl⟩
  · exact h.calls f hf
  · exact hes r (mem_requests.1 hr)

/-- The answer or the mark of a call does not change what it asks for. -/
theorem Lawful.set (h : s.Lawful P Q) {i : ℕ} {f f' : Flight ι} (hf : s.net[i]? = some f)
    (hreq : f'.request = f.request) : ({ s with net := s.net.set i f' } : System ι).Lawful P Q := by
  refine ⟨fun g hg => ?_, h.faults⟩
  rcases List.mem_or_eq_of_mem_set hg with hg | rfl
  · exact h.calls g hg
  · rw [hreq]
    exact h.calls f (List.mem_of_getElem? hf)

variable [DecidableEq ι]

theorem Lawful.modify (h : s.Lawful P Q) {f : Client → Client}
    (hf : ∀ x, (f (s.clients c)).fault = some x → (s.clients c).fault = some x ∨ Q x) :
    (s.modify c f).Lawful P Q := by
  refine ⟨h.calls, fun c' x hx => ?_⟩
  rw [clients_modify] at hx
  split_ifs at hx
  · exact (hf x hx).elim (h.faults c x) id
  · exact h.faults c' x hx

/-- A change of a device other than a fault. -/
theorem Lawful.modify_of_eq (h : s.Lawful P Q) {f : Client → Client}
    (hf : (f (s.clients c)).fault = (s.clients c).fault) : (s.modify c f).Lawful P Q :=
  h.modify fun _ hx => .inl (hf ▸ hx)

theorem Lawful.crash (h : s.Lawful P Q) {x : Fault} (hx : Q x) : (s.crash c x).Lawful P Q := by
  rw [System.crash]
  refine h.modify fun y hy => .inr ?_
  cases hy
  exact hx

/-! ## Steps -/

/-- What has to be known of the handlers that load screens, and of those of actions. -/
structure Rule (P : Request → Prop) (Q : Fault → Prop) : Prop where
  load : ∀ env d, Respects P Q (Screen.load env d)
  home : ∀ r, .request r ∈ HomeViewController.viewDidLoad.2 → P r
  act : ∀ env scr a res, Screen.act env scr a = some res → Respects P Q res

theorem Lawful.openScreen (h : s.Lawful P Q) (hrule : Rule P Q) (env : Env) (d : Destination) :
    (s.openScreen c k env d).Lawful P Q := by
  unfold System.openScreen
  have hload := hrule.load { env with currentUser := (s.clients c).currentUser } d
  split
  · next x hx =>
    rw [hx] at hload
    exact h.crash hload
  · next screen es hx =>
    rw [hx] at hload
    have hopen : (s.modify c fun cl => cl.openScreen k screen).Lawful P Q := h.modify_of_eq rfl
    exact hopen.sendAll hload

theorem Lawful.enterHome (h : s.Lawful P Q) (hrule : Rule P Q) (entrance : Entrance) :
    (s.enterHome c entrance).Lawful P Q := by
  have hentry : ({ s with entries := s.entries ++
      [HomeEntry.mk c entrance (s.clients c).currentUser] } : System ι).Lawful P Q :=
    ⟨h.calls, h.faults⟩
  have hshow := @Lawful.modify_of_eq ι _ c P Q _ hentry Client.showHome rfl
  exact hshow.sendAll hrule.home

theorem Lawful.enterInitial (h : s.Lawful P Q) (hrule : Rule P Q) :
    (s.enterInitial c).Lawful P Q := by
  have hshow : (s.modify c Client.showInitial).Lawful P Q := h.modify_of_eq rfl
  unfold System.enterInitial
  split_ifs
  · exact hshow
  · exact hshow.enterHome hrule _

theorem Lawful.performOne (h : s.Lawful P Q) (hrule : Rule P Q) {env : Env} {e : Effect}
    (he : ∀ r, e = .request r → P r) : (s.performOne c k env e).Lawful P Q := by
  cases e <;> simp only [System.performOne]
  case request r =>
    refine @Lawful.sendAll ι s c k P Q h [.request r] fun r' hr' => ?_
    exact he r' (List.mem_singleton.1 hr').symm
  case segue d => exact h.openScreen hrule env d
  case goToHome =>
    split_ifs
    · exact h.enterHome hrule _
    · exact h
  case presentInitial => exact h.enterInitial hrule
  all_goals exact h.modify_of_eq rfl

/-- **The rule for a handler.** -/
theorem Lawful.handle (h : s.Lawful P Q) (hrule : Rule P Q) {env : Env}
    {res : Except Fault (After Screen)} (hres : Respects P Q res) :
    (s.handle c k env res).Lawful P Q := by
  cases res with
  | error x => exact h.crash hres
  | ok x =>
    obtain ⟨screen, es⟩ := x
    have hset : (s.modify c fun cl => cl.setScreen k screen).Lawful P Q := h.modify_of_eq rfl
    exact perform_induct _ c k hset fun s e he hs =>
      hs.performOne hrule fun r hr => hres r (hr ▸ he)

theorem Lawful.act (h : s.Lawful P Q) (hrule : Rule P Q) {a : Action} {env : Env}
    (hs : s.act c k a env = some t) : t.Lawful P Q := by
  obtain ⟨n, res, -, -, -, -, hact, rfl⟩ := act_cases hs
  have hdraw : (s.draw a env).Lawful P Q := by
    unfold draw
    split_ifs
    · exact ⟨h.calls, h.faults⟩
    · exact h
  exact hdraw.handle hrule (hrule.act _ _ a res hact)

omit [DecidableEq ι] in
theorem Lawful.serve (h : s.Lawful P Q) {i : ℕ} {a : Answer} (hs : s.serve i a = some t) :
    t.Lawful P Q := by
  obtain ⟨f, u, r, hf, -, hserved, net, rfl, hnet⟩ := serve_cases hs
  obtain ⟨hc, hn, -⟩ := hserved.frame
  have hu : u.Lawful P Q := ⟨fun g hg => h.calls g (hn ▸ hg), fun c x hx => h.faults c x (hc ▸ hx)⟩
  rcases hnet with rfl | ⟨rfl, -⟩
  · exact hu.set (f := f) (hn ▸ hf) rfl
  · refine ⟨fun g hg => ?_, hu.faults⟩
    rcases List.mem_append.1 hg with hg | hg
    · exact hu.calls g hg
    · rw [List.mem_singleton.1 hg]
      exact h.calls f (List.mem_of_getElem? hf)

theorem Lawful.signIn (h : s.Lawful P Q) (r : Reply) : (s.signIn c r).Lawful P Q := by
  unfold System.signIn
  split
  · exact h.modify_of_eq rfl
  · exact h

/-- A closure runs on an answer that is in the net, on the screen that made the call. -/
theorem Lawful.deliver (h : s.Lawful P Q) (hrule : Rule P Q)
    (hreceive : ∀ f ∈ s.net, ∀ r k n env res, f.reply = some r → f.request.callback = some k →
      s.At f.client f.node n → n.screen.receive env k r = some res → Respects P Q res)
    {i date : ℕ} (hs : s.deliver i date = some t) : t.Lawful P Q := by
  obtain ⟨f, r, hf, hr, -, ⟨-, rfl⟩ | ⟨-, u, hu, hs'⟩⟩ := deliver_cases hs
  · exact h.set hf rfl
  have hmark : (s.mark i f).Lawful P Q := h.set hf rfl
  have hsign : u.Lawful P Q := hu ▸ hmark.signIn r
  rcases hs' with ⟨rfl, -⟩ | ⟨k, n, res, hk, hn, hres, rfl⟩
  · exact hsign
  · refine hsign.handle hrule (hreceive f (List.mem_of_getElem? hf) r k n _ res hr hk ?_ hres)
    rw [hu] at hn
    unfold System.signIn at hn
    split at hn
    · rwa [At, clients_modify, if_pos rfl] at hn
    · exact hn

/-- **The rule for a step**: its handlers respect what all calls and faults shall meet. -/
theorem Lawful.step (h : s.Lawful P Q) (hrule : Rule P Q)
    (hreceive : ∀ f ∈ s.net, ∀ r k n env res, f.reply = some r → f.request.callback = some k →
      s.At f.client f.node n → n.screen.receive env k r = some res → Respects P Q res)
    {e : Event ι} (hs : s.step e = some t) : t.Lawful P Q := by
  cases e with
  | launch c =>
    cases hs
    refine Lawful.enterInitial (h.modify fun x hx => ?_) hrule
    cases hx
  | act c k a env => exact h.act hrule hs
  | serve i a => exact h.serve hs
  | deliver i date => exact h.deliver hrule hreceive hs
  | setMod uid mod =>
    cases hs
    exact ⟨h.calls, h.faults⟩

omit [DecidableEq ι] in
theorem Initial.lawful (h : s.Initial) : s.Lawful P Q := by
  refine ⟨by simp [h.net], fun c x hx => ?_⟩
  rw [h.clients c] at hx
  cases hx

end System

end ArtsExplorer
