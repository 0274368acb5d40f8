import ArtsExplorer.Foundations.Selection
import ArtsExplorer.System.Creation
import ArtsExplorer.System.Screens
import ArtsExplorer.System.Settling
import ArtsExplorer.System.Start

/-!
# A screen by itself

`soloScreen` is one screen with the calls that it has made: something is done on it, an answer to
one of its calls is handed over, or a listener that it has registered has another snapshot to hand
over. Where the answers come from is left open.

The app is made of such screens. As long as its process runs, each screen of each device does what
it does by itself, with the actions on it and the answers to its own calls as they come in the run,
whatever happens on the other screens and devices (`solo_of_run`). So what the machine of a single
screen never does, the app never does on such a screen.
-/

namespace ArtsExplorer

open Foundations

/-- A screen with its calls, in the order in which it has made them, and with the answers that have
been handed over. -/
structure SoloScreen where
  screen : Screen
  calls : List (Request × Option Reply) := []
  fault : Option Fault := none

namespace SoloScreen

inductive Event
  | acted (env : Env) (a : Action)
  /-- The answer to call `i` is handed over. -/
  | replied (env : Env) (i : ℕ) (r : Reply)
  /-- The listener that call `i` has registered has another snapshot: a call of its own. -/
  | snapshot (i : ℕ)

variable (s : SoloScreen)

/-- The screen after a handler. -/
def after : Except Fault (After Screen) → SoloScreen
  | .error f => { s with fault := some f }
  | .ok (screen, es) => { s with screen := screen, calls := s.calls ++ unanswered es }

/-- The answer to call `i`, which is request `q`, has been handed over. -/
def answered (i : ℕ) (q : Request) (r : Reply) : SoloScreen :=
  { s with calls := s.calls.set i (q, some r) }

/-- What an event does while the process runs. -/
def react : Event → Option SoloScreen
  | .acted env a => (s.screen.act env a).map s.after
  | .replied env i r =>
    match s.calls[i]? with
    | some (q, none) =>
      match q.callback.bind fun k => s.screen.receive env k r with
      | some result => some ((s.answered i q r).after result)
      | none => some (s.answered i q r)
    | _ => none
  | .snapshot i =>
    match s.calls[i]? with
    | some (q, none) =>
      if q.isListener then some { s with calls := s.calls ++ [(q, none)] } else none
    | _ => none

def step (e : Event) : Option SoloScreen := if s.fault = none then s.react e else none

/-- If the event hands over the answer to a call, it is one that satisfies `P`. -/
def Given (P : Request → Reply → Prop) (e : Event) : Prop :=
  ∀ env i r q, e = .replied env i r → s.calls[i]? = some (q, none) → P q r

/-- The screen as it is opened. -/
def Opened : Prop :=
  ∃ scr es, Screen.Opened scr es ∧ s = { screen := scr, calls := unanswered es }

end SoloScreen

/-- One screen as a machine. -/
def soloScreen : Machine SoloScreen SoloScreen.Event where
  Initial := SoloScreen.Opened
  step := SoloScreen.step

/-- A screen stays of its kind. -/
theorem SoloScreen.kind_of_step {x y : SoloScreen} {e : SoloScreen.Event} (h : x.step e = some y) :
    y.screen.kind = x.screen.kind := by
  have hafter : ∀ {z : SoloScreen} {res : Except Fault (After Screen)},
      (∀ scr es, res = .ok (scr, es) → scr.kind = z.screen.kind) →
        (z.after res).screen.kind = z.screen.kind := by
    intro z res hres
    cases res with
    | error f => rfl
    | ok r => exact hres r.1 r.2 rfl
  rw [step] at h
  split_ifs at h
  cases e with
  | acted env a =>
    obtain ⟨res, hres, rfl⟩ := Option.map_eq_some_iff.1 h
    exact hafter fun scr es hok => (Screen.act_spec (hok ▸ hres)).1
  | replied env i r =>
    rw [react] at h
    split at h
    swap
    · cases h
    next q _ =>
    split at h
    · next res hres =>
      cases h
      obtain ⟨k, -, hreceive⟩ := Option.bind_eq_some_iff.1 hres
      exact hafter (z := x.answered i q r) fun scr es hok =>
        Screen.receive_kind (hok ▸ hreceive)
    · cases h
      rfl
  | snapshot i =>
    rw [react] at h
    split at h
    swap
    · cases h
    split_ifs at h
    cases h
    rfl

theorem SoloScreen.kind_of_steps {C : SoloScreen → SoloScreen.Event → Prop} {x y : SoloScreen}
    {es : List SoloScreen.Event} (h : soloScreen.Steps C x es y) :
    y.screen.kind = x.screen.kind := by
  induction h with
  | nil => rfl
  | snoc _ _ hs ih => exact (kind_of_step hs).trans ih

/-! ## The calls of a screen -/

/-- The type of a call's closure. -/
def Request.Takes : Request → Reply → Prop
  | .getDocument _ _ _, .document _ | .getDocuments _ _ _, .documents _
  | .addSnapshotListener _ _ _, .documents _ | .setData _ _ _ _, .completion _
  | .updateData _ _ _, .completion _ | .delete _ _ _, .completion _
  | .putData _ _ _, .completion _ | .createUser _ _ _, .auth _ | .signIn _ _ _, .auth _ => True
  | _, _ => False

/-- What has been handed over is an answer, and an answer is of the type that the closure takes. -/
structure Flight.WellTyped {ι : Type} (f : Flight ι) : Prop where
  delivered : f.delivered = true → f.reply ≠ none
  takes : ∀ r, f.reply = some r → f.request.Takes r

namespace System

variable {ι : Type} [DecidableEq ι] {s t u : System ι} {c c' : ι} {k k' : ℕ}

/-- What an event is to screen `k` of device `c`. -/
def soloEvent (s : System ι) (c : ι) (k : ℕ) : Event ι → Option SoloScreen.Event
  | .act c' k' a env => if c' = c ∧ k' = k then some (.acted (s.seenBy c env) a) else none
  | .serve i _ =>
    (s.net[i]?).bind fun f =>
      if f.client = c ∧ f.node = k ∧ s.Alive f ∧ f.request.isListener then
        some (.snapshot (place (seenOn c k) s.net i))
      else none
  | .deliver i date =>
    (s.net[i]?).bind fun f =>
      if f.client = c ∧ f.node = k ∧ s.Alive f then
        f.reply.map fun r =>
          .replied ((s.signIn c r).seenBy c { date := date }) (place (seenOn c k) s.net i) r
      else none
  | _ => none

/-- Screen `k` of device `c` is `x`, as long as the process runs. -/
structure Plays (s : System ι) (c : ι) (k : ℕ) (x : SoloScreen) : Prop where
  screen : ∃ n, s.At c k n ∧ n.screen = x.screen
  live : (s.clients c).running = true → x.fault = none ∧ s.callsOf c k = s.launched c x.calls

/-- The backend has given `r` to a call `q`. -/
def Gives (s : System ι) (q : Request) (r : Reply) : Prop :=
  ∃ f ∈ s.net, f.request = q ∧ f.reply = some r

/-- A step of the app to screen `k` of device `c`, which is `x`: an event of the screen by itself,
or nothing. -/
def Turn (s t : System ι) (c : ι) (k : ℕ) (x : SoloScreen) (e : Event ι) : Prop :=
  (s.soloEvent c k e = none ∧ t.Plays c k x) ∨ ∃ ev y, s.soloEvent c k e = some ev ∧
    x.Given s.Gives ev ∧ x.step ev = some y ∧ t.Plays c k y

/-- There is no screen `k` of device `c`, and no call of it. -/
def Unborn (s : System ι) (c : ι) (k : ℕ) : Prop := (∀ n, ¬ s.At c k n) ∧ s.callsOf c k = []

/-! ## What happens on the screen -/

/-- **A handler of the screen.** -/
theorem plays_handle {env : Env} {x : SoloScreen} (h : s.Plays c k x)
    (r : Except Fault (After Screen)) : (s.handle c k env r).Plays c k (x.after r) := by
  obtain ⟨n, hn, hscr⟩ := h.screen
  cases r with
  | error f =>
    rw [handle, crash]
    refine ⟨⟨n, (at_modify rfl).2 hn, hscr⟩, fun hrun => ?_⟩
    rw [clients_modify, if_pos rfl] at hrun
    cases hrun
  | ok y =>
    obtain ⟨screen, es⟩ := y
    obtain ⟨hat, hcalls, hepoch, hrunning⟩ := perform_own env es (at_setScreen hn screen)
    refine ⟨⟨_, hat, rfl⟩, fun hrun => ?_⟩
    have hepoch' : ((s.modify c fun cl => cl.setScreen k screen).clients c).epoch =
        (s.clients c).epoch := by
      rw [clients_modify, if_pos rfl]
      rfl
    have hrun' : (s.clients c).running = true := by
      have hset := hrunning hrun
      rw [clients_modify, if_pos rfl] at hset
      exact hset
    obtain ⟨hfault, hlive⟩ := h.live hrun'
    refine ⟨hfault, ?_⟩
    rw [handle, hcalls, launched_congr (hepoch.trans hepoch'), launched_congr hepoch']
    change s.callsOf c k ++ _ = _
    rw [hlive, launched, launched, ← List.map_append]
    rfl

/-! ## Steps -/

/-- What is done elsewhere. -/
theorem Plays.spared {x : SoloScreen} (h : s.Plays c k x) (hspares : s.Spares t c k) :
    t.Plays c k x := by
  obtain ⟨n, hn, hscr⟩ := h.screen
  obtain ⟨ht, hcalls⟩ := hspares.kept n hn
  refine ⟨⟨n, ht, hscr⟩, fun hrun => ?_⟩
  rw [hcalls, launched_congr hspares.epoch]
  exact h.live (hspares.running hrun)

/-- What is written into a call of another screen, or what its own screen does not see. -/
theorem callsOf_set {i : ℕ} {f f' : Flight ι} (hi : s.net[i]? = some f)
    (hseen : seenOn c k f' = seenOn c k f) :
    ({ s with net := s.net.set i f' } : System ι).callsOf c k = s.callsOf c k :=
  filterMap_set_same hi hseen

omit [DecidableEq ι] in
/-- A call that the screen sees, by its place. -/
theorem Plays.call [DecidableEq ι] {x : SoloScreen} (h : s.Plays c k x) {i : ℕ} {f : Flight ι}
    (hi : s.net[i]? = some f) (hc : f.client = c) (hk : f.node = k)
    (hrun : (s.clients c).running = true) :
    x.calls[place (seenOn c k) s.net i]? =
      some (f.request, if f.delivered then f.reply else none) := by
  have hplace := getElem?_place (p := seenOn c k) hi (if_pos ⟨hc, hk⟩)
  change (s.callsOf c k)[_]? = _ at hplace
  rw [(h.live hrun).2, launched, List.getElem?_map, Option.map_eq_some_iff] at hplace
  obtain ⟨y, hy, hseen⟩ := hplace
  rw [hy, ← (Prod.mk.inj hseen).2]

/-- The calls of a screen that is there are those of the process that runs. -/
theorem Plays.alive {x : SoloScreen} (h : s.Plays c k x) {f : Flight ι} (hf : f ∈ s.net)
    (hc : f.client = c) (hk : f.node = k) : s.Alive f ↔ (s.clients c).running = true := by
  rw [Alive, hc]
  refine and_iff_left_of_imp fun hrun => ?_
  have hmem : f.seen ∈ s.callsOf c k := List.mem_filterMap.2 ⟨f, hf, if_pos ⟨hc, hk⟩⟩
  rw [(h.live hrun).2] at hmem
  obtain ⟨y, -, hy⟩ := List.mem_map.1 hmem
  exact (Prod.mk.inj hy).1

omit [DecidableEq ι] in
theorem evaluate_takes {req : Request} {a : Answer} {r : Reply}
    (h : s.evaluate req a = some (t, r)) : req.Takes r := by
  cases a with
  | failure e => cases req <;> cases h <;> trivial
  | success | created uid => cases evaluate_cases h <;> trivial

omit [DecidableEq ι] in
/-- What serving a call writes into the net. -/
theorem serve_net {i : ℕ} {a : Answer} (h : s.serve i a = some t) :
    ∃ f r, s.net[i]? = some f ∧ f.reply = none ∧ f.request.Takes r ∧ t.clients = s.clients ∧
      t.net = if f.request.isListener then s.net ++ [{ f with reply := some r }]
        else s.net.set i { f with reply := some r } := by
  obtain ⟨f, u, r, hi, hnone, hserved, -⟩ := serve_cases h
  unfold serve at h
  simp only [hi, hnone, Option.isNone_none, if_true] at h
  split at h
  · next u' r' he =>
    obtain ⟨hclients, hnet, -⟩ := (evaluate_cases he).frame
    refine ⟨f, r', hi, hnone, evaluate_takes he, ?_⟩
    split at h
    · next hreq =>
      cases h
      rw [hreq]
      exact ⟨hclients, by rw [Request.isListener, if_pos rfl, ← hnet]⟩
    · next hreq =>
      cases h
      refine ⟨hclients, ?_⟩
      have hlisten : f.request.isListener = false := by
        unfold Request.isListener
        split
        · next heq => exact absurd heq (hreq _ _ _)
        · rfl
      rw [hlisten, ← hnet]
      rfl
  · cases h

/-- **The calls are well typed** in every reachable state. -/
theorem wellTyped (h : (machine ι).Reachable s) : ∀ f ∈ s.net, f.WellTyped := by
  refine h.induct (I := fun s => ∀ f ∈ s.net, f.WellTyped)
    (fun s h₀ f hf => ?_) (fun s e t _ hi _ hs f hf => ?_)
  · rw [h₀.net] at hf
    cases hf
  by_cases hserve : ∃ i a, e = .serve i a
  · obtain ⟨i, a, rfl⟩ := hserve
    obtain ⟨g, r, hg, -, htakes, -, hnet⟩ := serve_net hs
    have hcases : f ∈ s.net ∨ f = { g with reply := some r } := by
      rw [hnet] at hf
      split_ifs at hf
      · simpa using hf
      · exact List.mem_or_eq_of_mem_set hf
    rcases hcases with hf | rfl
    · exact hi f hf
    · exact ⟨fun _ => Option.some_ne_none r, fun r' hr' => Option.some.inj hr' ▸ htakes⟩
  · rcases call_cases hs (fun i a he => hserve ⟨i, a, he⟩) f hf with
      ⟨hr, hnew⟩ | hf | ⟨i, date, g, r, -, hg, hr, -, rfl⟩
    · refine ⟨fun hd => ?_, fun r hr' => ?_⟩
      · rw [hnew] at hd
        cases hd
      · rw [hr] at hr'
        cases hr'
    · exact hi f hf
    · have hold := hi g (List.mem_of_getElem? hg)
      refine ⟨fun _ => ?_, hold.takes⟩
      rw [hr]
      exact Option.some_ne_none r

theorem Gives.takes (h : (machine ι).Reachable s) {q : Request} {r : Reply} (hg : s.Gives q r) :
    q.Takes r := by
  obtain ⟨f, hf, rfl, hr⟩ := hg
  exact (wellTyped h f hf).takes r hr

/-- What the screen sees, and its process, are as they were. -/
theorem Plays.unseen {x : SoloScreen} (h : s.Plays c k x) (hclients : t.clients = s.clients)
    (hcalls : t.callsOf c k = s.callsOf c k) : t.Plays c k x := by
  refine h.spared ⟨fun n hn => ⟨?_, hcalls⟩, fun hno => .inl ⟨fun n hn => hno n ?_, hcalls⟩, ?_, ?_⟩
  · rw [At, hclients]
    exact hn
  · rw [At, hclients] at hn
    exact hn
  · rw [hclients]
  · rw [hclients]
    exact id

/-- The backend serves a call: nothing to any screen, unless the call is a listener of its own. -/
theorem Plays.serve {x : SoloScreen} (h : s.Plays c k x) (hreach : (machine ι).Reachable s)
    {i : ℕ} {a : Answer} (hs : s.serve i a = some t) : s.Turn t c k x (.serve i a) := by
  obtain ⟨f, r, hi, hnone, -, hclients, hnet⟩ := serve_net hs
  have hf : f ∈ s.net := List.mem_of_getElem? hi
  have hd : f.delivered = false := by
    by_contra hd
    exact (wellTyped hreach f hf).delivered (by simpa using hd) hnone
  have hseen : seenOn c k { f with reply := some r } = seenOn c k f := by
    rw [seenOn, seenOn, Flight.seen, Flight.seen, hd]
    rfl
  by_cases hl : f.request.isListener = true
  · rw [if_pos hl] at hnet
    have hcalls : t.callsOf c k = s.callsOf c k ++ (seenOn c k f).toList := by
      rw [callsOf, hnet, List.filterMap_append, callsOf, ← hseen]
      cases hp : seenOn c k { f with reply := some r } <;> simp [hp]
    by_cases hck : f.client = c ∧ f.node = k
    · have hsaw : seenOn c k f = some f.seen := if_pos hck
      by_cases hrun : (s.clients c).running = true
      · have halive : s.Alive f := (h.alive hf hck.1 hck.2).2 hrun
        have hcall := h.call hi hck.1 hck.2 hrun
        obtain ⟨hfault, hlive⟩ := h.live hrun
        refine .inr ⟨.snapshot (place (seenOn c k) s.net i),
          { x with calls := x.calls ++ [(f.request, none)] }, ?_, fun _ _ _ _ he => ?_, ?_, ?_⟩
        · rw [soloEvent, hi, Option.bind_some, if_pos ⟨hck.1, hck.2, halive, hl⟩]
        · cases he
        · rw [hd] at hcall
          rw [SoloScreen.step, if_pos hfault, SoloScreen.react, hcall]
          exact if_pos hl
        · obtain ⟨n, hn, hscr⟩ := h.screen
          refine ⟨⟨n, ?_, hscr⟩, fun _ => ⟨hfault, ?_⟩⟩
          · rw [At, hclients]
            exact hn
          · have hepoch : (s.clients c).epoch = f.epoch := hck.1 ▸ halive.2
            rw [hcalls, hlive, hsaw, launched_congr (congrArg (fun cl => (cl c).epoch) hclients),
              launched, launched, List.map_append, Flight.seen, hd, hepoch]
            rfl
      · refine .inl ⟨?_, ?_⟩
        · rw [soloEvent, hi, Option.bind_some, if_neg]
          rintro ⟨-, -, halive, -⟩
          exact hrun (hck.1 ▸ halive.1)
        · obtain ⟨n, hn, hscr⟩ := h.screen
          refine ⟨⟨n, ?_, hscr⟩, fun hrun' => ?_⟩
          · rw [At, hclients]
            exact hn
          · rw [hclients] at hrun'
            exact absurd hrun' hrun
    · refine .inl ⟨?_, h.unseen hclients ?_⟩
      · rw [soloEvent, hi, Option.bind_some, if_neg]
        rintro ⟨hc, hk, -⟩
        exact hck ⟨hc, hk⟩
      · rw [hcalls, seenOn, if_neg hck]
        exact List.append_nil _
  · rw [if_neg hl] at hnet
    refine .inl ⟨?_, h.unseen hclients ?_⟩
    · rw [soloEvent, hi, Option.bind_some, if_neg]
      rintro ⟨-, -, -, hl'⟩
      exact hl hl'
    · rw [callsOf, hnet]
      exact callsOf_set hi hseen

/-- The answer to a call of the screen is handed over. -/
theorem Plays.answer {f : Flight ι} {x : SoloScreen} (h : s.Plays f.client f.node x) {i : ℕ}
    {r : Reply} (hi : s.net[i]? = some f) (hr : f.reply = some r)
    (halive : s.Alive f) :
    (s.mark i f).Plays f.client f.node
      (x.answered (place (seenOn f.client f.node) s.net i) f.request r) := by
  obtain ⟨hfault, hlive⟩ := h.live halive.1
  have hseen : seenOn f.client f.node f = some f.seen := if_pos ⟨rfl, rfl⟩
  have hseen' : seenOn f.client f.node { f with delivered := true } =
      some (f.epoch, f.request, some r) := by
    rw [← hr]
    exact if_pos ⟨rfl, rfl⟩
  refine ⟨h.screen, fun _ => ⟨hfault, ?_⟩⟩
  calc (s.mark i f).callsOf f.client f.node
      = (s.callsOf f.client f.node).set (place (seenOn f.client f.node) s.net i)
          (f.epoch, f.request, some r) := filterMap_set_some hi hseen hseen'
    _ = (s.launched f.client x.calls).set (place (seenOn f.client f.node) s.net i)
          ((s.clients f.client).epoch, f.request, some r) := by rw [hlive, halive.2]
    _ = _ := List.map_set.symm

theorem seenBy_signIn_mark {f : Flight ι} {i : ℕ} {r : Reply} {env : Env} :
    ((s.mark i f).signIn c r).seenBy c env = (s.signIn c r).seenBy c env := by
  unfold signIn
  split <;> rfl

/-- An answer arrives: nothing to the screen, unless it is the answer to one of its own calls. -/
theorem Plays.deliver {x : SoloScreen} (h : s.Plays c k x) {i date : ℕ}
    (hs : s.deliver i date = some t) : s.Turn t c k x (.deliver i date) := by
  obtain ⟨f, r, hi, hr, hd, hcases⟩ := deliver_cases hs
  have hf : f ∈ s.net := List.mem_of_getElem? hi
  by_cases hck : f.client = c ∧ f.node = k
  · obtain ⟨rfl, rfl⟩ := hck
    have halive := h.alive hf rfl rfl
    rcases hcases with ⟨hdead, rfl⟩ | ⟨hlive, u, rfl, hcases⟩
    · refine .inl ⟨?_, ?_⟩
      · rw [soloEvent, hi, Option.bind_some, if_neg]
        exact fun hx => hdead hx.2.2
      · obtain ⟨n, hn, hscr⟩ := h.screen
        exact ⟨⟨n, hn, hscr⟩, fun hrun => absurd (halive.2 hrun) hdead⟩
    · have hmark := h.answer hi hr hlive
      have hsign : (s.mark i f).Spares ((s.mark i f).signIn f.client r) f.client f.node :=
        spares_signIn r
      have hplays := hmark.spared hsign
      have hcall := h.call hi rfl rfl (halive.1 hlive)
      have hfault := (h.live (halive.1 hlive)).1
      have hevent : s.soloEvent f.client f.node (.deliver i date) =
          some (.replied ((s.signIn f.client r).seenBy f.client { date := date })
            (place (seenOn f.client f.node) s.net i) r) := by
        rw [soloEvent, hi, Option.bind_some, if_pos ⟨rfl, rfl, hlive⟩, hr]
        rfl
      rw [hd] at hcall
      have hgiven : x.Given s.Gives (.replied ((s.signIn f.client r).seenBy f.client
          { date := date }) (place (seenOn f.client f.node) s.net i) r) := by
        rintro _ _ _ q ⟨⟩ hq
        rw [hcall] at hq
        cases hq
        exact ⟨f, hf, rfl, hr⟩
      rw [seenBy_signIn_mark] at hcases
      obtain ⟨n, hn, hscr⟩ := hplays.screen
      rcases hcases with ⟨rfl, hquiet⟩ | ⟨cb, m, res, hcb, hm, hres, rfl⟩
      · refine .inr ⟨_, _, hevent, hgiven, ?_, hplays⟩
        rw [SoloScreen.step, if_pos hfault, SoloScreen.react, hcall]
        have hnone : (f.request.callback.bind fun cb => x.screen.receive
            ((s.signIn f.client r).seenBy f.client { date := date }) cb r) = none := by
          cases hcb : f.request.callback with
          | none => rfl
          | some cb => exact hscr ▸ hquiet cb n hcb hn
        simp [hnone]
      · cases Option.some.inj (hm.symm.trans hn)
        refine .inr ⟨_, _, hevent, hgiven, ?_, plays_handle hplays res⟩
        rw [SoloScreen.step, if_pos hfault, SoloScreen.react, hcall]
        have hsome : (f.request.callback.bind fun cb => x.screen.receive
            ((s.signIn f.client r).seenBy f.client { date := date }) cb r) = some res := by
          rw [hcb]
          exact hscr ▸ hres
        simp [hsome]
  · have hmark : (s.mark i f).Plays c k x := by
      refine h.unseen rfl (callsOf_set hi ?_)
      rw [seenOn, if_neg hck, seenOn, if_neg hck]
    refine .inl ⟨?_, ?_⟩
    · rw [soloEvent, hi, Option.bind_some, if_neg]
      rintro ⟨hc, hk, -⟩
      exact hck ⟨hc, hk⟩
    · rcases hcases with ⟨-, rfl⟩ | ⟨-, u, rfl, ⟨rfl, -⟩ | ⟨cb, n, res, -, -, -, rfl⟩⟩
      · exact hmark
      · exact hmark.spared (spares_signIn r)
      · exact (hmark.spared (spares_signIn r)).spared (spares_handle _ res hck)

/-- **A step of the app** is an event of the screen by itself, or nothing to it. -/
theorem Plays.step {x : SoloScreen} (h : s.Plays c k x) (hreach : (machine ι).Reachable s)
    {e : Event ι} (he : e ≠ .launch c) (hs : s.step e = some t) : s.Turn t c k x e := by
  cases e with
  | launch c' =>
    have hc : c' ≠ c := fun hc => he (hc ▸ rfl)
    cases hs
    refine .inl ⟨rfl, h.spared (Spares.trans ?_ spares_enterInitial)⟩
    have hclient : (s.modify c' fun cl =>
        { cl with epoch := cl.epoch + 1, running := true, fault := none }).clients c =
          s.clients c := by
      rw [clients_modify, if_neg (Ne.symm hc)]
    refine ⟨fun n hn => ⟨?_, rfl⟩, fun hno => .inl ⟨fun n hn => hno n ?_, rfl⟩, ?_, ?_⟩
    · rw [At, hclient]
      exact hn
    · rw [At, hclient] at hn
      exact hn
    · rw [hclient]
    · rw [hclient]
      exact id
  | act c' k' a env =>
    obtain ⟨n, r, hn, hrun, -, -, hact, rfl⟩ := act_cases hs
    have hdraw : (s.draw a env).Plays c k x := by
      obtain ⟨m, hm, hscr⟩ := h.screen
      refine ⟨⟨m, by rw [At, clients_draw]; exact hm, hscr⟩, fun hrun => ?_⟩
      rw [clients_draw] at hrun
      have hcalls : (s.draw a env).callsOf c k = s.callsOf c k := by
        unfold draw
        split_ifs <;> rfl
      have hlaunched : (s.draw a env).launched c = s.launched c :=
        launched_congr (by rw [clients_draw])
      rw [hcalls, hlaunched]
      exact h.live hrun
    by_cases hck : c' = c ∧ k' = k
    · obtain ⟨rfl, rfl⟩ := hck
      obtain ⟨m, hm, hscr⟩ := h.screen
      cases Option.some.inj (hm.symm.trans hn)
      refine .inr ⟨_, x.after r, if_pos ⟨rfl, rfl⟩, fun _ _ _ _ he => ?_, ?_,
        plays_handle hdraw r⟩
      · cases he
      rw [SoloScreen.step, if_pos (h.live hrun).1, SoloScreen.react, ← hscr, hact]
      rfl
    · exact .inl ⟨if_neg hck, hdraw.spared (spares_handle _ r hck)⟩
  | serve i a => exact h.serve hreach hs
  | deliver i date => exact h.deliver hs
  | setMod uid mod =>
    cases hs
    exact .inl ⟨rfl, h.screen, h.live⟩

/-! ## Runs -/

/-- No call is that of a screen that is not there. -/
theorem Unborn.not_seen (h : s.Unborn c k) {i : ℕ} {f : Flight ι} (hi : s.net[i]? = some f) :
    ¬ (f.client = c ∧ f.node = k) := by
  intro hck
  have hmem : f.seen ∈ s.callsOf c k :=
    List.mem_filterMap.2 ⟨f, List.mem_of_getElem? hi, if_pos hck⟩
  rw [h.2] at hmem
  cases hmem

theorem Unborn.soloEvent (h : s.Unborn c k) {e : Event ι} (hs : s.step e = some t) :
    s.soloEvent c k e = none := by
  cases e with
  | act c' k' a env =>
    obtain ⟨n, -, hn, -⟩ := act_cases hs
    refine if_neg ?_
    rintro ⟨rfl, rfl⟩
    exact h.1 n hn
  | serve i a =>
    obtain ⟨f, -, hi, -⟩ := serve_net hs
    rw [System.soloEvent, hi, Option.bind_some, if_neg]
    rintro ⟨hc, hk, -⟩
    exact h.not_seen hi ⟨hc, hk⟩
  | deliver i date =>
    obtain ⟨f, -, hi, -⟩ := deliver_cases hs
    rw [System.soloEvent, hi, Option.bind_some, if_neg]
    rintro ⟨hc, hk, -⟩
    exact h.not_seen hi ⟨hc, hk⟩
  | launch c' => rfl
  | setMod uid mod => rfl

/-- **A step of the app** without the screen: it is opened, or it is still not there. -/
theorem Unborn.step (h : s.Unborn c k) {e : Event ι} (hs : s.step e = some t) :
    t.Unborn c k ∨ ∃ x : SoloScreen, x.Opened ∧ t.Plays c k x := by
  have hopen : ∀ {u : System ι}, u.Unborn c k → u.Spares t c k →
      t.Unborn c k ∨ ∃ x : SoloScreen, x.Opened ∧ t.Plays c k x := by
    intro u hu hspares
    rcases hspares.opened hu.1 with ⟨ht, hcalls⟩ | ⟨n, es, hn, hopened, hcalls⟩
    · exact .inl ⟨ht, hcalls.trans hu.2⟩
    · rw [hu.2] at hcalls
      exact .inr ⟨_, ⟨_, es, hopened, rfl⟩, ⟨n, hn, rfl⟩, fun _ => ⟨rfl, hcalls⟩⟩
  have hsame : ∀ {u : System ι}, u.clients = s.clients → (u.callsOf c k = s.callsOf c k) →
      u.Unborn c k := by
    intro u hclients hcalls
    refine ⟨fun n hn => h.1 n ?_, hcalls.trans h.2⟩
    rw [At, hclients] at hn
    exact hn
  cases e with
  | launch c' =>
    cases hs
    have hlaunched : (s.modify c' fun cl =>
        { cl with epoch := cl.epoch + 1, running := true, fault := none }).Unborn c k := by
      exact ⟨fun n hn => h.1 n ((at_modify rfl).1 hn), h.2⟩
    exact hopen hlaunched spares_enterInitial
  | act c' k' a env =>
    obtain ⟨n, r, hn, -, -, -, -, rfl⟩ := act_cases hs
    have hck : ¬ (c' = c ∧ k' = k) := by
      rintro ⟨rfl, rfl⟩
      exact h.1 n hn
    refine hopen (hsame (clients_draw ..) ?_) (spares_handle _ r hck)
    unfold draw
    split_ifs <;> rfl
  | serve i a =>
    obtain ⟨f, r, hi, -, -, hclients, hnet⟩ := serve_net hs
    have hck := h.not_seen hi
    have hseen : seenOn c k { f with reply := some r } = none := if_neg hck
    refine .inl (hsame hclients ?_)
    rw [callsOf, hnet]
    split_ifs
    · rw [List.filterMap_append, List.filterMap_cons, hseen]
      exact List.append_nil _
    · exact callsOf_set hi (hseen.trans (if_neg hck).symm)
  | deliver i date =>
    obtain ⟨f, r, hi, -, -, hcases⟩ := deliver_cases hs
    have hck := h.not_seen hi
    have hmark : (s.mark i f).Unborn c k := by
      refine hsame rfl (callsOf_set hi ?_)
      rw [seenOn, if_neg hck, seenOn, if_neg hck]
    rcases hcases with ⟨-, rfl⟩ | ⟨-, u, rfl, ⟨rfl, -⟩ | ⟨cb, n, res, -, -, -, rfl⟩⟩
    · exact .inl hmark
    · exact hopen hmark (spares_signIn r)
    · exact hopen hmark ((spares_signIn r).trans (spares_handle _ res hck))
  | setMod uid mod =>
    cases hs
    exact .inl (hsame rfl rfl)

/-- Device `c` is launched again when it has screen `k`. -/
def Relaunches (s : System ι) (c : ι) (k : ℕ) : Event ι → Prop
  | .launch c' => c' = c ∧ ((s.clients c).nodes[k]?).isSome = true
  | _ => False

instance (s : System ι) (c : ι) (k : ℕ) : (e : Event ι) → Decidable (s.Relaunches c k e)
  | .launch _ => inferInstanceAs (Decidable (_ ∧ _))
  | .act _ _ _ _ | .serve _ _ | .deliver _ _ | .setMod _ _ => inferInstanceAs (Decidable False)

/-- The screen along a run: it is not there yet, or it has been opened and has come to where it is
by what happened on it, which met `W`. -/
def Solo (W : SoloScreen → SoloScreen.Event → Prop) (c : ι) (k : ℕ) (l : List SoloScreen.Event)
    (s : System ι) : Prop :=
  (l = [] ∧ s.Unborn c k) ∨ ∃ x₀ x : SoloScreen, x₀.Opened ∧
    soloScreen.Steps (fun x e => x.Given s.Gives e ∧ W x e) x₀ l x ∧ s.Plays c k x

omit [DecidableEq ι] in
theorem Extends.given (h : s.Extends t) {x : SoloScreen} {e : SoloScreen.Event}
    (hx : x.Given s.Gives e) : x.Given t.Gives e := by
  intro env i r q he hq
  obtain ⟨f, hf, hreq, hr⟩ := hx env i r q he hq
  obtain ⟨f', hf', hgr⟩ := h.mem_net hf
  exact ⟨f', hf', hgr.request.trans hreq, hgr.reply r hr⟩

theorem Solo.step {W : SoloScreen → SoloScreen.Event → Prop} {l : List SoloScreen.Event}
    (h : s.Solo W c k l) (hreach : (machine ι).Reachable s) {e : Event ι}
    (he : ¬ s.Relaunches c k e)
    (hW : ∀ x ev, s.Plays c k x → s.soloEvent c k e = some ev → W x ev) (hs : s.step e = some t) :
    t.Solo W c k (l ++ (s.soloEvent c k e).toList) := by
  rcases h with ⟨rfl, h⟩ | ⟨x₀, x, hx₀, hrun, h⟩
  · rw [h.soloEvent hs]
    rcases h.step hs with ht | ⟨x, hx, ht⟩
    · exact .inl ⟨rfl, ht⟩
    · exact .inr ⟨x, x, hx, .nil x, ht⟩
  · have hne : e ≠ .launch c := by
      rintro rfl
      obtain ⟨n, hn, -⟩ := h.screen
      exact he ⟨rfl, Option.isSome_iff_exists.2 ⟨n, hn⟩⟩
    have hext : s.Extends t := step_extends hs
    have hrun' : soloScreen.Steps (fun x e => x.Given t.Gives e ∧ W x e) x₀ l x :=
      hrun.mono fun _ _ hx => ⟨hext.given hx.1, hx.2⟩
    rcases h.step hreach hne hs with ⟨hnone, ht⟩ | ⟨ev, y, hsome, hgiven, hstep, ht⟩
    · rw [hnone]
      exact .inr ⟨x₀, x, hx₀, (List.append_nil l).symm ▸ hrun', ht⟩
    · rw [hsome]
      exact .inr ⟨x₀, y, hx₀, hrun'.snoc ⟨hext.given hgiven, hW x ev h hsome⟩ hstep, ht⟩

/-- What happens on screen `k` of device `c` along a run. -/
def soloLog (c : ι) (k : ℕ) (s : System ι) (es : List (Event ι)) : List SoloScreen.Event :=
  (machine ι).log (fun s e => (s.soloEvent c k e).toList) s es

/-- A screen along a run whose steps meet `C`: what happens on it meets `W`. -/
theorem solo_steps {C : System ι → Event ι → Prop} {W : SoloScreen → SoloScreen.Event → Prop}
    (hC : ∀ s e, C s e → ¬ s.Relaunches c k e)
    (hW : ∀ s e u x ev, C s e → s.step e = some u → s.Plays c k x →
      s.soloEvent c k e = some ev → W x ev)
    {s₀ : System ι} {es : List (Event ι)} (h₀ : s₀.Initial) (hrun : (machine ι).Steps C s₀ es t)
    {n : Node} (hn : t.At c k n) :
    ∃ x₀ x : SoloScreen, x₀.Opened ∧
      soloScreen.Steps (fun x e => x.Given t.Gives e ∧ W x e) x₀ (s₀.soloLog c k es) x ∧
        n.screen = x.screen ∧ t.Plays c k x := by
  have hinit : s₀.Solo W c k [] := by
    refine .inl ⟨rfl, fun n hn => ?_, ?_⟩
    · rw [At, h₀.clients] at hn
      cases hn
    · rw [callsOf, h₀.net]
      rfl
  have hsolo : t.Solo W c k (s₀.soloLog c k es) :=
    hrun.log_induct (I := Solo W c k) (.init h₀) hinit fun l s e u hreach hl hCs hs =>
      hl.step hreach (hC s e hCs) (fun x ev hx hev => hW s e u x ev hCs hs hx hev) hs
  rcases hsolo with ⟨-, hunborn⟩ | ⟨x₀, x, hx₀, hsteps, hplays⟩
  · exact absurd hn (hunborn.1 n)
  · obtain ⟨m, hm, hscr⟩ := hplays.screen
    cases Option.some.inj (hm.symm.trans hn)
    exact ⟨x₀, x, hx₀, hsteps, hscr, hplays⟩

/-- **Every screen is by itself.** In a run in which device `c` is not launched again once it has
screen `k`, this screen was opened as any screen is and then did what it does by itself with what
happened on it: its own actions, the answers that the backend gave to its own calls, and nothing
else. While its process runs, its calls are also the ones that it makes by itself. -/
theorem solo_of_run {s₀ : System ι} {es : List (Event ι)} (h₀ : s₀.Initial)
    (hrun : (machine ι).Steps (fun s e => ¬ s.Relaunches c k e) s₀ es t) {n : Node}
    (hn : t.At c k n) :
    ∃ x₀ x : SoloScreen, x₀.Opened ∧
      soloScreen.Steps (fun x => x.Given t.Gives) x₀ (s₀.soloLog c k es) x ∧
        n.screen = x.screen ∧
        ((t.clients c).running = true →
          x.fault = none ∧ t.callsOf c k = t.launched c x.calls) := by
  obtain ⟨x₀, x, hx₀, hsteps, hscr, hplays⟩ := solo_steps (W := fun _ _ => True)
    (fun _ _ h => h) (fun _ _ _ _ _ _ _ _ _ => trivial) h₀ hrun hn
  exact ⟨x₀, x, hx₀, hsteps.mono fun _ _ h => h.1, hscr, hplays.live⟩

/-- Ann logs in on a device, and pulls her home screen to refresh when it has loaded. -/
def refreshedHome : List (Event Unit) :=
  logInEvents () 0 "ann@cis.edu.hk" "pass" ++ answerEvents 1 ++ [.act () 3 .refresh {}]

theorem solo_of_run_home : ∃ (t : System Unit) (n : Node) (x₀ x : SoloScreen),
    t.At () 3 n ∧ x₀.Opened ∧
      soloScreen.Steps (fun x => x.Given t.Gives) x₀ ((start annAndBob).soloLog () 3 refreshedHome)
        x ∧ n.screen = x.screen := by
  obtain ⟨t, ht, hp⟩ := (machine Unit).exists_of_runWhile
    (C := fun s e => ¬ s.Relaunches () 3 e) (fun s e => decide (¬ s.Relaunches () 3 e))
    (fun s e h => of_decide_eq_true h) (start annAndBob) refreshedHome
    (fun t => ((t.clients ()).nodes[3]?).isSome) (by decide +kernel)
  obtain ⟨n, hn⟩ := Option.isSome_iff_exists.1 hp
  obtain ⟨x₀, x, hx₀, hx, hscr, -⟩ := solo_of_run (initial_start annAndBob) ht hn
  exact ⟨t, n, x₀, x, hn, hx₀, hx, hscr⟩

end System

end ArtsExplorer
