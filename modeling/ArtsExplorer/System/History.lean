import ArtsExplorer.App.CallSites
import ArtsExplorer.System.Basic

/-!
# What a step leaves in place

Nothing of the past of a system is forgotten: screens and calls keep their numbers, a screen keeps
its kind, its opener and the user it was loaded for, a call keeps its request and, once it is there,
its answer. `Extends s s'` says this of two systems; every step extends the system
(`step_extends`). A fact about the history of a system that `Extends` preserves holds for ever.

The first part collects what the primitives of `System` do to each component.
-/

namespace ArtsExplorer

open Foundations

/-- The calls among some effects. -/
def requests : List Effect → List Request
  | [] => []
  | .request r :: es => r :: requests es
  | _ :: es => requests es

theorem mem_requests {es : List Effect} {r : Request} : r ∈ requests es ↔ .request r ∈ es := by
  induction es with
  | nil => simp [requests]
  | cons e es ih => cases e <;> simp [requests, ih]

namespace System

/-! ## The primitives, component by component -/

section Primitives

variable {ι : Type} (s : System ι) (c : ι) (k : ℕ)

/-- Screen `k` of device `c`. -/
def At (c : ι) (k : ℕ) (n : Node) : Prop := (s.clients c).nodes[k]? = some n

/-- A call that is being made. -/
def flight (r : Request) : Flight ι :=
  { client := c, epoch := (s.clients c).epoch, node := k, user := (s.clients c).currentUser,
    request := r }

theorem sendAll_eq (es : List Effect) :
    s.sendAll c k es = { s with net := s.net ++ (requests es).map (s.flight c k) } := by
  induction es generalizing s with
  | nil => simp [sendAll, requests]
  | cons e es ih =>
    cases e with
    | request r =>
      rw [sendAll, ih]
      simp only [send, requests, List.map_cons, List.append_assoc, List.singleton_append]
      rfl
    | _ => exact ih s

/-- The process that made a call is still running. -/
def Alive (s : System ι) (f : Flight ι) : Prop :=
  (s.clients f.client).running = true ∧ (s.clients f.client).epoch = f.epoch

instance (s : System ι) (f : Flight ι) : Decidable (s.Alive f) :=
  inferInstanceAs (Decidable (_ ∧ _))

/-- What a handler of device `c` reads. -/
def seenBy (s : System ι) (c : ι) (env : Env) : Env :=
  { env with currentUser := (s.clients c).currentUser }

/-- The system after the handler of an action has drawn its `UUID()`, if it does. -/
def draw (s : System ι) (a : Action) (env : Env) : System ι :=
  if a.drawsUUID then { s with uuids := env.uuid :: s.uuids } else s

/-- The system after the answer of call `i` has been handed over. -/
def mark (s : System ι) (i : ℕ) (f : Flight ι) : System ι :=
  { s with net := s.net.set i { f with delivered := true } }

@[simp] theorem clients_sendAll (es : List Effect) : (s.sendAll c k es).clients = s.clients := by
  rw [sendAll_eq]

variable [DecidableEq ι]

@[simp] theorem clients_modify (f : Client → Client) (c' : ι) :
    (s.modify c f).clients c' = if c' = c then f (s.clients c) else s.clients c' := by
  simp only [modify, Function.update_apply]

/-- The rule for `perform`: a property kept by each effect. -/
theorem perform_induct {P : System ι → Prop} {env : Env} {es : List Effect} (h : P s)
    (step : ∀ s e, e ∈ es → P s → P (s.performOne c k env e)) : P (perform env s c k es) := by
  induction es generalizing s with
  | nil => exact h
  | cons e es ih =>
    exact ih _ (step s e List.mem_cons_self h) fun s e he => step s e (List.mem_cons_of_mem _ he)

end Primitives

end System

/-! ## Histories -/

/-- What a call keeps. -/
structure Flight.Grows {ι : Type} (f f' : Flight ι) : Prop where
  client : f'.client = f.client
  epoch : f'.epoch = f.epoch
  node : f'.node = f.node
  user : f'.user = f.user
  request : f'.request = f.request
  reply : ∀ r, f.reply = some r → f'.reply = some r
  delivered : f.delivered = true → f'.delivered = true

/-- What a screen keeps. -/
structure Node.Keeps (n n' : Node) : Prop where
  container : n'.container = n.container
  opener : n'.opener = n.opener
  user : n'.user = n.user
  kind : n'.screen.kind = n.screen.kind

theorem Flight.Grows.refl {ι : Type} (f : Flight ι) : f.Grows f :=
  ⟨rfl, rfl, rfl, rfl, rfl, fun _ h => h, id⟩

theorem Flight.Grows.trans {ι : Type} {f g h : Flight ι} (h₁ : f.Grows g) (h₂ : g.Grows h) :
    f.Grows h where
  client := h₂.client.trans h₁.client
  epoch := h₂.epoch.trans h₁.epoch
  node := h₂.node.trans h₁.node
  user := h₂.user.trans h₁.user
  request := h₂.request.trans h₁.request
  reply r hr := h₂.reply r (h₁.reply r hr)
  delivered hd := h₂.delivered (h₁.delivered hd)

theorem Node.Keeps.refl (n : Node) : n.Keeps n := ⟨rfl, rfl, rfl, rfl⟩

theorem Node.Keeps.trans {n m l : Node} (h₁ : n.Keeps m) (h₂ : m.Keeps l) : n.Keeps l where
  container := h₂.container.trans h₁.container
  opener := h₂.opener.trans h₁.opener
  user := h₂.user.trans h₁.user
  kind := h₂.kind.trans h₁.kind

namespace System

section Extends

variable {ι : Type} {s t u : System ι} {c : ι} {k : ℕ}

/-- `t` is a later system than `s`. -/
structure Extends (s t : System ι) : Prop where
  net : ∀ (i : ℕ) (f : Flight ι), s.net[i]? = some f → ∃ f', t.net[i]? = some f' ∧ f.Grows f'
  nodes : ∀ (c : ι) (k : ℕ) (n : Node), s.At c k n → ∃ n', t.At c k n' ∧ n.Keeps n'
  uuids : ∀ x ∈ s.uuids, x ∈ t.uuids
  accounts : ∀ a ∈ s.accounts, a ∈ t.accounts
  entries : ∀ e ∈ s.entries, e ∈ t.entries

theorem Extends.refl (s : System ι) : s.Extends s :=
  ⟨fun _ f h => ⟨f, h, .refl f⟩, fun _ _ n h => ⟨n, h, .refl n⟩, fun _ h => h, fun _ h => h,
    fun _ h => h⟩

theorem Extends.trans (h₁ : s.Extends t) (h₂ : t.Extends u) : s.Extends u where
  net i f hf := by
    obtain ⟨g, hg, hfg⟩ := h₁.net i f hf
    obtain ⟨h, hh, hgh⟩ := h₂.net i g hg
    exact ⟨h, hh, hfg.trans hgh⟩
  nodes c k n hn := by
    obtain ⟨m, hm, hnm⟩ := h₁.nodes c k n hn
    obtain ⟨l, hl, hml⟩ := h₂.nodes c k m hm
    exact ⟨l, hl, hnm.trans hml⟩
  uuids x hx := h₂.uuids x (h₁.uuids x hx)
  accounts a ha := h₂.accounts a (h₁.accounts a ha)
  entries e he := h₂.entries e (h₁.entries e he)

/-- A call of `s` in a later system. -/
theorem Extends.mem_net (h : s.Extends t) {f : Flight ι} (hf : f ∈ s.net) :
    ∃ f' ∈ t.net, f.Grows f' := by
  obtain ⟨i, hi⟩ := List.mem_iff_getElem?.1 hf
  obtain ⟨f', hf', hg⟩ := h.net i f hi
  exact ⟨f', List.mem_of_getElem? hf', hg⟩

theorem extends_net (l : List (Flight ι)) : s.Extends { s with net := s.net ++ l } := by
  refine ⟨fun i f h => ⟨f, ?_, .refl f⟩, fun _ _ n h => ⟨n, h, .refl n⟩, fun _ h => h, fun _ h => h,
    fun _ h => h⟩
  exact List.getElem?_append_left (List.getElem?_eq_some_iff.1 h).1 ▸ h

theorem extends_send (r : Request) : s.Extends (s.send c k r) := extends_net _

theorem extends_sendAll (es : List Effect) : s.Extends (s.sendAll c k es) := by
  rw [sendAll_eq]
  exact extends_net _

/-- Writing an answer or a delivery mark into the call it belongs to. -/
theorem extends_set {i : ℕ} {f f' : Flight ι} (hf : s.net[i]? = some f) (hg : f.Grows f') :
    s.Extends { s with net := s.net.set i f' } := by
  refine ⟨fun j g hg' => ?_, fun _ _ n h => ⟨n, h, .refl n⟩, fun _ h => h, fun _ h => h,
    fun _ h => h⟩
  by_cases hij : i = j
  · subst hij
    have hgf : g = f := Option.some.inj (hg'.symm.trans hf)
    subst hgf
    exact ⟨f', List.getElem?_set_self (List.getElem?_eq_some_iff.1 hf).1, hg⟩
  · exact ⟨g, (List.getElem?_set_ne hij).trans hg', .refl g⟩

theorem extends_mark {i : ℕ} {f : Flight ι} (hf : s.net[i]? = some f) : s.Extends (s.mark i f) :=
  extends_set hf ⟨rfl, rfl, rfl, rfl, rfl, fun _ hr => hr, fun _ => rfl⟩

/-- What the backend does with a call: one constructor per call that succeeds, one for the update of
a document that is not there, and one for all the failures. -/
inductive Served (s : System ι) : Request → Answer → System ι → Reply → Prop
  | document (n id k) :
      Served s (.getDocument n id k) .success s (.document ((s.store n).lookup id))
  | documents (n q k) :
      Served s (.getDocuments n q k) .success s (.documents (.ok ((s.store n).getDocuments q)))
  | snapshot (n q k) :
      Served s (.addSnapshotListener n q k) .success s
        (.documents (.ok ((s.store n).getDocuments q)))
  | setData (n id fields k) :
      Served s (.setData n id fields k) .success
        (s.setStore n ((s.store n).setData id (.ofFields fields))) (.completion none)
  | updateData {d} (n id ups) (hd : (s.store n).lookup id = some d) :
      Served s (.updateData n id ups) .success (s.setStore n ((s.store n).updateData id ups))
        (.completion none)
  | missing (n id ups) (hd : (s.store n).lookup id = none) :
      Served s (.updateData n id ups) .success s (.completion (some "No document to update"))
  | delete (n id k) :
      Served s (.delete n id k) .success (s.setStore n ((s.store n).delete id)) (.completion none)
  | putData (path image k) :
      Served s (.putData path image k) .success
        { s with objects := Function.update s.objects path (some image) } (.completion none)
  | createUser (email password uid k) (h : ∀ a ∈ s.accounts, a.email ≠ email ∧ a.uid ≠ uid) :
      Served s (.createUser email password k) (.created uid)
        { s with accounts := s.accounts ++ [⟨email, password, uid⟩] } (.auth (.ok uid))
  | signIn (email password k) (a : Account) (ha : a ∈ s.accounts) :
      Served s (.signIn email password k) .success s (.auth (.ok a.uid))
  | failed {req r} (e : String) (hr : r = .document none ∨ r = .documents (.error e) ∨
      r = .completion (some e) ∨ r = .auth (.error e)) : Served s req (.failure e) s r

theorem evaluate_cases {req : Request} {a : Answer} {r : Reply}
    (h : s.evaluate req a = some (t, r)) : s.Served req a t r := by
  cases a with
  | failure e => cases req <;> cases h <;> exact .failed e (by simp)
  | created uid =>
    cases req <;> simp only [evaluate, reduceCtorEq] at h
    split_ifs at h with hfree
    cases h
    exact .createUser _ _ uid _ hfree
  | success =>
    cases req with
    | updateData n id ups =>
      rw [evaluate] at h
      split at h
      · next d hd =>
        cases h
        exact .updateData n id ups hd
      · next hd =>
        cases h
        exact .missing n id ups hd
    | createUser => cases h
    | signIn email password k =>
      simp only [evaluate, Option.map_eq_some_iff, Prod.mk.injEq] at h
      obtain ⟨x, hx, rfl, rfl⟩ := h
      exact .signIn email password k x (List.mem_of_find?_eq_some hx)
    | _ =>
      cases h
      constructor

/-- Serving a call changes the backend only. -/
theorem Served.frame {req : Request} {a : Answer} {r : Reply} (h : s.Served req a t r) :
    t.clients = s.clients ∧ t.net = s.net ∧ t.uuids = s.uuids ∧ t.entries = s.entries ∧
      ∀ x ∈ s.accounts, x ∈ t.accounts := by
  cases h with
  | createUser => exact ⟨rfl, rfl, rfl, rfl, fun x hx => List.mem_append_left _ hx⟩
  | _ => exact ⟨rfl, rfl, rfl, rfl, fun _ hx => hx⟩

theorem serve_cases {i : ℕ} {a : Answer} (h : s.serve i a = some s') :
    ∃ f t r, s.net[i]? = some f ∧ f.reply = none ∧ s.Served f.request a t r ∧
      ∃ net, s' = { t with net := net } ∧
        (net = t.net.set i { f with reply := some r } ∨
          (net = t.net ++ [{ f with reply := some r }] ∧
            ∃ n q k, f.request = .addSnapshotListener n q k)) := by
  unfold serve at h
  split at h
  · next f hf =>
    split_ifs at h with hr
    split at h
    · next t r he =>
      refine ⟨f, t, r, hf, by simpa using hr, evaluate_cases he, ?_⟩
      split at h
      · next n q k hreq =>
        cases h
        exact ⟨_, rfl, .inr ⟨rfl, n, q, k, hreq⟩⟩
      · cases h
        exact ⟨_, rfl, .inl rfl⟩
    · cases h
  · cases h

theorem extends_serve {i : ℕ} {a : Answer} (h : s.serve i a = some s') : s.Extends s' := by
  obtain ⟨f, t, r, hf, hr, he, net, rfl, hnet⟩ := serve_cases h
  obtain ⟨hc, hn, hu, hen, ha⟩ := he.frame
  have hst : s.Extends t := by
    refine ⟨fun j g hg => ⟨g, hn ▸ hg, .refl g⟩, fun c k n hk => ⟨n, ?_, .refl n⟩,
      fun x hx => hu ▸ hx, ha, fun e he => hen ▸ he⟩
    rw [At, hc]
    exact hk
  rcases hnet with rfl | ⟨rfl, -⟩
  · refine hst.trans
      (extends_set (f := f) (hn ▸ hf) ⟨rfl, rfl, rfl, rfl, rfl, fun r' hr' => ?_, id⟩)
    rw [hr] at hr'
    cases hr'
  · exact hst.trans (extends_net _)

theorem extends_draw (a : Action) (env : Env) : s.Extends (s.draw a env) := by
  unfold draw
  split_ifs
  · exact ⟨fun _ f h => ⟨f, h, .refl f⟩, fun _ _ n h => ⟨n, h, .refl n⟩,
      fun _ h => List.mem_cons_of_mem _ h, fun _ h => h, fun _ h => h⟩
  · exact .refl s

@[simp] theorem clients_draw (a : Action) (env : Env) : (s.draw a env).clients = s.clients := by
  unfold draw
  split_ifs <;> rfl

end Extends

variable {ι : Type} [DecidableEq ι] {s s' : System ι} {c : ι} {k : ℕ}

theorem extends_modify {f : Client → Client}
    (h : ∀ (k : ℕ) (n : Node), (s.clients c).nodes[k]? = some n →
      ∃ n', (f (s.clients c)).nodes[k]? = some n' ∧ n.Keeps n') : s.Extends (s.modify c f) := by
  refine ⟨fun _ f h => ⟨f, h, .refl f⟩, ?_, fun _ h => h, fun _ h => h, fun _ h => h⟩
  intro c' k n hn
  by_cases hc : c' = c
  · subst hc
    obtain ⟨n', hn', hk⟩ := h k n hn
    exact ⟨n', by simp only [At, clients_modify, if_pos]; exact hn', hk⟩
  · exact ⟨n, by simpa only [At, clients_modify, if_neg hc] using hn, .refl n⟩

/-- A change of a device that leaves its screens alone. -/
theorem extends_modify_of_nodes {f : Client → Client}
    (h : (f (s.clients c)).nodes = (s.clients c).nodes) : s.Extends (s.modify c f) :=
  extends_modify fun _ n hn => ⟨n, by rw [h]; exact hn, .refl n⟩

theorem push_keeps (cl : Client) (opener : Option ℕ) (screen : Screen) (k : ℕ) (n : Node)
    (hn : cl.nodes[k]? = some n) : (cl.push opener screen).nodes[k]? = some n :=
  List.getElem?_append_left (List.getElem?_eq_some_iff.1 hn).1 ▸ hn

theorem extends_setScreen {screen : Screen} {n : Node} (hn : s.At c k n)
    (hk : screen.kind = n.screen.kind) :
    s.Extends (s.modify c fun cl => cl.setScreen k screen) := by
  refine extends_modify fun k' n' hn' => ?_
  rw [Client.setScreen, List.getElem?_modify, hn']
  by_cases hkk : k = k'
  · subst hkk
    have hnn : n' = n := Option.some.inj (hn'.symm.trans hn)
    subst hnn
    exact ⟨{ n' with screen := screen }, by simp, rfl, rfl, rfl, hk⟩
  · exact ⟨n', by simp [hkk], .refl n'⟩

theorem extends_openScreen (env : Env) (d : Destination) : s.Extends (s.openScreen c k env d) := by
  unfold openScreen
  split
  · exact extends_modify_of_nodes rfl
  · next screen effects _ =>
    refine Extends.trans ?_ (extends_sendAll effects)
    exact extends_modify fun k' n hn => ⟨n, push_keeps _ (some k) screen k' n hn, .refl n⟩

theorem extends_showInitial : s.Extends (s.modify c Client.showInitial) :=
  extends_modify fun k n hn => ⟨n, push_keeps _ none .initial k n hn, .refl n⟩

theorem extends_showHome : s.Extends (s.modify c Client.showHome) :=
  extends_modify fun k n hn =>
    ⟨n, push_keeps _ _ _ k n (push_keeps _ none (.tabBar false false) k n hn), .refl n⟩

omit [DecidableEq ι] in
/-- The record of an entry aside, nothing changes. -/
theorem extends_entries (e : HomeEntry ι) : s.Extends { s with entries := s.entries ++ [e] } :=
  ⟨fun _ f h => ⟨f, h, .refl f⟩, fun _ _ n h => ⟨n, h, .refl n⟩, fun _ h => h, fun _ h => h,
    fun _ h => List.mem_append_left _ h⟩

theorem extends_enterHome (entrance : Entrance) : s.Extends (s.enterHome c entrance) :=
  (extends_entries _).trans (extends_showHome.trans (extends_sendAll _))

theorem extends_enterInitial : s.Extends (s.enterInitial c) := by
  unfold enterInitial
  split_ifs
  · exact extends_showInitial
  · exact extends_showInitial.trans (extends_enterHome _)

theorem extends_performOne (env : Env) (e : Effect) : s.Extends (s.performOne c k env e) := by
  cases e <;> simp only [performOne]
  case request r => exact extends_send r
  case segue d => exact extends_openScreen env d
  case goToHome =>
    split_ifs
    · exact extends_enterHome _
    · exact .refl s
  case presentInitial => exact extends_enterInitial
  all_goals exact extends_modify_of_nodes rfl

theorem extends_perform (env : Env) (es : List Effect) : s.Extends (perform env s c k es) :=
  perform_induct s c k (.refl s) fun _ _ _ h => h.trans (extends_performOne env _)

theorem extends_handle {env : Env} {r : Except Fault (After Screen)} {n : Node} (hn : s.At c k n)
    (hr : ∀ a, r = .ok a → a.1.kind = n.screen.kind) : s.Extends (s.handle c k env r) := by
  cases r with
  | error f =>
    rw [handle, crash]
    exact extends_modify_of_nodes rfl
  | ok a => exact (extends_setScreen hn (hr a rfl)).trans (extends_perform env a.2)

/-! ## Steps -/

theorem act_cases {a : Action} {env : Env} (h : s.act c k a env = some s') :
    ∃ n r, s.At c k n ∧ (s.clients c).running = true ∧
      (a.byUser = true → Reaches (s.clients c) k n) ∧ (a.drawsUUID = true → env.uuid ∉ s.uuids) ∧
      n.screen.act (s.seenBy c env) a = some r ∧
      s' = (s.draw a env).handle c k (s.seenBy c env) r := by
  unfold act at h
  dsimp only at h
  split at h
  · next n hn =>
    split_ifs at h with hcond hdraw
    all_goals
      simp only [Option.map_eq_some_iff] at h
      obtain ⟨r, hr, rfl⟩ := h
      exact ⟨n, r, hn, hcond.1, hcond.2.1, hcond.2.2, hr, by simp only [draw, hdraw]; rfl⟩
  · cases h

theorem deliver_cases {i date : ℕ} (h : s.deliver i date = some s') :
    ∃ f r, s.net[i]? = some f ∧ f.reply = some r ∧ f.delivered = false ∧
      ((¬ s.Alive f ∧ s' = s.mark i f) ∨
        (s.Alive f ∧ ∃ t, t = (s.mark i f).signIn f.client r ∧
          ((s' = t ∧ ∀ k n, f.request.callback = some k → t.At f.client f.node n →
              n.screen.receive (t.seenBy f.client { date := date }) k r = none) ∨
            ∃ k n res, f.request.callback = some k ∧ t.At f.client f.node n ∧
              n.screen.receive (t.seenBy f.client { date := date }) k r = some res ∧
              s' = t.handle f.client f.node (t.seenBy f.client { date := date }) res))) := by
  unfold deliver at h
  split at h
  · next f hf =>
    split at h
    · next r hr =>
      split_ifs at h with hd hrun
      · dsimp only at h
        refine ⟨f, r, hf, hr, by simpa using hd, .inr ⟨hrun, _, rfl, ?_⟩⟩
        split at h
        · next k n hk hn =>
          split at h
          · next res hres =>
            cases h
            exact .inr ⟨k, n, res, hk, hn, hres, rfl⟩
          · next hres =>
            cases h
            refine .inl ⟨rfl, fun k' n' hk' hn' => ?_⟩
            cases hk.symm.trans hk'
            cases Option.some.inj (hn.symm.trans hn')
            exact hres
        · next hno =>
          cases h
          exact .inl ⟨rfl, fun k' n' hk' hn' => absurd hn' (hno k' n' hk')⟩
      · cases h
        exact ⟨f, r, hf, hr, by simpa using hd, .inl ⟨hrun, rfl⟩⟩
    · cases h
  · cases h

theorem extends_signIn (r : Reply) : s.Extends (s.signIn c r) := by
  unfold signIn
  split
  · exact extends_modify_of_nodes rfl
  · exact .refl s

theorem extends_deliver {i date : ℕ} (h : s.deliver i date = some s') : s.Extends s' := by
  obtain ⟨f, r, hf, hr, -, ⟨-, rfl⟩ | ⟨-, t, rfl, hs'⟩⟩ := deliver_cases h
  · exact extends_mark hf
  · have ht := (extends_mark hf).trans (extends_signIn (c := f.client) r)
    rcases hs' with ⟨rfl, -⟩ | ⟨k, n, res, -, hn, hres, rfl⟩
    · exact ht
    · refine ht.trans (extends_handle hn fun a ha => ?_)
      subst ha
      exact Screen.receive_kind hres

theorem extends_act {a : Action} {env : Env} (h : s.act c k a env = some s') : s.Extends s' := by
  obtain ⟨n, r, hn, -, -, -, hr, rfl⟩ := act_cases h
  refine (extends_draw a env).trans (extends_handle (n := n) ?_ fun a ha => ?_)
  · rw [At, clients_draw]
    exact hn
  · subst ha
    exact (Screen.act_spec hr).1

theorem extends_launch : s.Extends (s.launch c) := by
  refine Extends.trans ?_ extends_enterInitial
  exact extends_modify_of_nodes rfl

/-- **Every step extends the system.** -/
theorem step_extends {e : Event ι} (h : s.step e = some s') : s.Extends s' := by
  cases e with
  | launch c => cases h; exact extends_launch
  | act c k a env => exact extends_act h
  | serve i a => exact extends_serve h
  | deliver i date => exact extends_deliver h
  | setMod uid mod =>
    cases h
    exact ⟨fun _ f h => ⟨f, h, .refl f⟩, fun _ _ n h => ⟨n, h, .refl n⟩, fun _ h => h, fun _ h => h,
      fun _ h => h⟩

/-- So does every run. -/
theorem extends_of_steps {C : System ι → Event ι → Prop} {es : List (Event ι)}
    (h : (machine ι).Steps C s es s') : s.Extends s' := by
  induction h with
  | nil => exact .refl _
  | snoc _ _ hs ih => exact ih.trans (step_extends hs)

/-! ## The backend -/

/-- The backend is as it was. -/
structure SameBackend {ι : Type} (s t : System ι) : Prop where
  store : t.store = s.store
  accounts : t.accounts = s.accounts
  objects : t.objects = s.objects

section Backend

variable {ι : Type} {s t u : System ι} {c : ι} {k : ℕ}

theorem SameBackend.refl (s : System ι) : s.SameBackend s := ⟨rfl, rfl, rfl⟩

theorem SameBackend.trans (h₁ : s.SameBackend t) (h₂ : t.SameBackend u) : s.SameBackend u :=
  ⟨h₂.store.trans h₁.store, h₂.accounts.trans h₁.accounts, h₂.objects.trans h₁.objects⟩

theorem sameBackend_sendAll (es : List Effect) : s.SameBackend (s.sendAll c k es) := by
  rw [sendAll_eq]
  exact ⟨rfl, rfl, rfl⟩

theorem sameBackend_draw (a : Action) (env : Env) : s.SameBackend (s.draw a env) := by
  unfold draw
  split_ifs <;> exact ⟨rfl, rfl, rfl⟩

variable [DecidableEq ι]

theorem sameBackend_modify (f : Client → Client) : s.SameBackend (s.modify c f) := ⟨rfl, rfl, rfl⟩

theorem sameBackend_enterHome (entrance : Entrance) : s.SameBackend (s.enterHome c entrance) := by
  unfold enterHome
  refine SameBackend.trans ?_ (sameBackend_sendAll _)
  exact ⟨rfl, rfl, rfl⟩

theorem sameBackend_enterInitial : s.SameBackend (s.enterInitial c) := by
  unfold enterInitial
  split_ifs
  · exact sameBackend_modify _
  · exact (sameBackend_modify _).trans (sameBackend_enterHome _)

theorem sameBackend_performOne (env : Env) (e : Effect) :
    s.SameBackend (s.performOne c k env e) := by
  cases e <;> simp only [performOne]
  case segue d =>
    unfold openScreen
    split
    · exact sameBackend_modify _
    · exact (sameBackend_modify _).trans (sameBackend_sendAll _)
  case goToHome =>
    split_ifs
    · exact sameBackend_enterHome _
    · exact .refl s
  case presentInitial => exact sameBackend_enterInitial
  all_goals exact ⟨rfl, rfl, rfl⟩

theorem sameBackend_handle (env : Env) (r : Except Fault (After Screen)) :
    s.SameBackend (s.handle c k env r) := by
  cases r with
  | error f =>
    rw [handle, crash]
    exact sameBackend_modify _
  | ok a =>
    have hset : s.SameBackend (s.modify c fun cl => cl.setScreen k a.1) := sameBackend_modify _
    exact perform_induct _ c k hset fun _ _ _ h => h.trans (sameBackend_performOne env _)

theorem sameBackend_signIn (r : Reply) : s.SameBackend (s.signIn c r) := by
  unfold signIn
  split
  · exact sameBackend_modify _
  · exact .refl s

/-- **Only serving a call and `setMod` change the backend.** -/
theorem step_sameBackend {e : Event ι} (h : s.step e = some t) (hserve : ∀ i a, e ≠ .serve i a)
    (hmod : ∀ uid mod, e ≠ .setMod uid mod) : s.SameBackend t := by
  cases e with
  | launch c =>
    cases h
    exact (sameBackend_modify _).trans sameBackend_enterInitial
  | act c k a env =>
    obtain ⟨n, r, -, -, -, -, -, rfl⟩ := act_cases h
    exact (sameBackend_draw a env).trans (sameBackend_handle _ r)
  | serve i a => exact absurd rfl (hserve i a)
  | deliver i date =>
    obtain ⟨f, r, -, -, -, ⟨-, rfl⟩ | ⟨-, t, rfl, hs'⟩⟩ := deliver_cases h
    · exact ⟨rfl, rfl, rfl⟩
    have hsign : s.SameBackend ((s.mark i f).signIn f.client r) := by
      refine SameBackend.trans ?_ (sameBackend_signIn r)
      exact ⟨rfl, rfl, rfl⟩
    rcases hs' with ⟨rfl, -⟩ | ⟨k, n, res, -, -, -, rfl⟩
    · exact hsign
    · exact hsign.trans (sameBackend_handle _ res)
  | setMod uid mod => exact absurd rfl (hmod uid mod)

end Backend

end System

end ArtsExplorer
