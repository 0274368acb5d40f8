import ArtsExplorer.Content.Ownership
import ArtsExplorer.Sessions.Entries

/-!
# Sign-ups

A sign-up is two calls, `createUser` and then, from its completion, the write of the user document.
Neither failure is undone and both lead to the home screen: after the first nobody is signed in
there, after the second an account is left that has no user document (`signUp_half_done`).

`SignUpHolds` is the condition on a step under which a sign-up is all or nothing: both calls
succeed, and the process that made the first is still there, with its sign-up screen in front, when
it succeeds. In the runs that meet it every sign-up that completes is all or nothing, and every
account has its user document when no sign-up is in flight (`signUp_all_or_nothing`).
-/

namespace ArtsExplorer

open Foundations

/-- The call is the first of a sign-up. -/
def Request.isSignUp : Request → Bool
  | .createUser _ _ _ => true
  | _ => false

/-- The user whose document the call creates, as the second of a sign-up does. -/
def Request.saves : Request → Option String
  | .setData .users uid _ _ => some uid
  | _ => none

theorem Request.isSignUp_iff {r : Request} :
    r.isSignUp = true ↔ ∃ email password k, r = .createUser email password k := by
  cases r <;> simp [isSignUp]

theorem Request.saves_eq_some {r : Request} {uid : String} :
    r.saves = some uid ↔ ∃ fields k, r = .setData .users uid fields k := by
  cases r with
  | setData n id fields k => cases n <;> simp [saves]
  | _ => simp [saves]

namespace System

variable {ι : Type} (s : System ι)

/-! ## What a sign-up should do -/

/-- Device `c` has been taken to the home screen from the sign-up screen `k`. -/
def HomeFrom (c : ι) (k : ℕ) : Prop :=
  ∃ en ∈ s.entries, en.client = c ∧ en.entrance = .goToHome k

/-- User `uid` has a document. -/
def HasDocument (uid : String) : Prop := (s.store .users).lookup uid ≠ none

/-- The sign-up screen `k` is in front and shows an error. -/
def ShowsError (c : ι) (k : ℕ) : Prop :=
  (s.clients c).top = some k ∧
    ∃ n screen message, s.At c k n ∧ n.screen = .signUp screen ∧ screen.errorLabel = some message

/-- The sign-up that call `f` began has done everything, or nothing. -/
def AllOrNothing (f : Flight ι) : Prop :=
  (∃ uid, f.reply = some (.auth (.ok uid)) ∧ (∃ a ∈ s.accounts, a.uid = uid) ∧ s.HasDocument uid ∧
      s.HomeFrom f.client f.node) ∨
    ((∀ uid, f.reply = some (.auth (.ok uid)) → ∀ a ∈ s.accounts, a.uid ≠ uid) ∧
      s.ShowsError f.client f.node)

/-- Event `e` completes the sign-up that call `f` began: its failure is handed over, or the answer
to the write of the user document. -/
inductive Completes (f : Flight ι) : Event ι → Prop
  | failed (i date : ℕ) (error : String) (hi : s.net[i]? = some f)
    (hreq : f.request.isSignUp = true)
      (halive : s.Alive f) (hrep : f.reply = some (.auth (.error error))) :
      Completes f (.deliver i date)
  | saved (i date : ℕ) (g : Flight ι) (uid : String) (hi : s.net[i]? = some g)
      (hsave : g.request.saves = some uid) (halive : s.Alive g) (hf : f ∈ s.net)
      (hreq : f.request.isSignUp = true) (hclient : f.client = g.client) (hnode : f.node = g.node)
      (hrep : f.reply = some (.auth (.ok uid))) : Completes f (.deliver i date)

/-- A sign-up is in flight: an answer of `createUser` is awaited, or a user document is being
written. -/
def SignUpInFlight : Prop :=
  ∃ f ∈ s.net, (f.request.isSignUp = true ∧ (f.reply = none ∨ (f.delivered = false ∧ s.Alive f))) ∨
    (f.request.saves ≠ none ∧ f.reply = none)

variable [DecidableEq ι]

/-- **The condition on a step.** An account is created for a process that is running and is not
ended before it learns of it, with the sign-up screen in front or its device at home already; a
failure of `createUser` is not handed over; and the write of the user document succeeds. -/
structure SignUpHolds (s : System ι) (e : Event ι) : Prop where
  created : ∀ i uid f, e = .serve i (.created uid) → s.net[i]? = some f → s.Alive f
  kept : ∀ s', s.step e = some s' → ∀ f ∈ s.net, f.request.isSignUp = true →
    (∃ uid, f.reply = some (.auth (.ok uid))) → f.delivered = false → s.Alive f → s'.Alive f
  completed : ∀ i date f, e = .deliver i date → s.net[i]? = some f → f.request.isSignUp = true →
    s.Alive f →
    (∃ uid, f.reply = some (.auth (.ok uid))) ∧
      ((s.clients f.client).top = some f.node ∨ s.HomeFrom f.client f.node)
  saved : ∀ i error f, e = .serve i (.failure error) → s.net[i]? = some f →
    ∀ uid, f.request.saves ≠ some uid

/-! ## The invariant -/

omit [DecidableEq ι]

/-- The document of user `uid` is there, or its write is in flight. -/
def Saving (uid : String) : Prop :=
  s.HasDocument uid ∨ ∃ g ∈ s.net, g.reply = none ∧ g.request.saves = some uid

/-- How far the sign-ups have come. -/
structure SignUpInv : Prop where
  answered : ∀ f ∈ s.net, f.delivered = true → f.reply ≠ none
  account : ∀ f ∈ s.net, f.request.isSignUp = true → ∀ uid, f.reply = some (.auth (.ok uid)) →
    ∃ a ∈ s.accounts, a.uid = uid
  alive : ∀ f ∈ s.net, f.request.isSignUp = true → ∀ uid, f.reply = some (.auth (.ok uid)) →
    f.delivered = false → s.Alive f
  told : ∀ f ∈ s.net, f.request.isSignUp = true → ∀ uid, f.reply = some (.auth (.ok uid)) →
    f.delivered = true → s.Saving uid ∧ s.HomeFrom f.client f.node
  saved : ∀ f ∈ s.net, ∀ uid, f.request.saves = some uid → f.reply ≠ none → s.HasDocument uid
  owner : ∀ a ∈ s.accounts, s.HasDocument a.uid ∨
    ∃ f ∈ s.net, f.request.isSignUp = true ∧ f.reply = some (.auth (.ok a.uid))

variable {s} {s' t : System ι}

theorem initial_signUpInv (h : s.Initial) : s.SignUpInv := by
  refine ⟨by simp [h.net], by simp [h.net], by simp [h.net], by simp [h.net], by simp [h.net],
    fun a ha => .inl ?_⟩
  obtain ⟨d, hd⟩ := (h.account_iff a.uid).1 ⟨a, ha, rfl⟩
  simp [HasDocument, hd]

/-- With no sign-up in flight every account has its document. -/
theorem SignUpInv.hasDocument (h : s.SignUpInv) (hno : ¬ s.SignUpInFlight) {a : Account}
    (ha : a ∈ s.accounts) : s.HasDocument a.uid := by
  rcases h.owner a ha with hdoc | ⟨f, hf, hreq, hrep⟩
  · exact hdoc
  cases hdel : f.delivered with
  | false => exact absurd ⟨f, hf, .inl ⟨hreq, .inr ⟨hdel, h.alive f hf hreq _ hrep hdel⟩⟩⟩ hno
  | true =>
    rcases (h.told f hf hreq _ hrep hdel).1 with hdoc | ⟨g, hg, hnone, hsave⟩
    · exact hdoc
    · exact absurd ⟨g, hg, .inr ⟨by simp [hsave], hnone⟩⟩ hno

theorem HomeFrom.extends {c : ι} {k : ℕ} (h : s.HomeFrom c k) (he : s.Extends t) :
    t.HomeFrom c k := by
  obtain ⟨en, hen, hc⟩ := h
  exact ⟨en, he.entries en hen, hc⟩

/-! ## Steps -/

section Steps

variable [DecidableEq ι] {e : Event ι}

/-- User documents are not deleted. -/
theorem HasDocument.step {uid : String} (h : s.HasDocument uid) (hs : (machine ι).Reachable s)
    (hstep : s.step e = some s') : s'.HasDocument uid := by
  have hkeep : KeepsField "id" s s' :=
    keepsField_of_step (reachable_inv (hs.mono fun _ _ _ => False.elim)) (reachable_fresh hs)
      (by decide) (fun hk => absurd hk (by decide)) hstep
  obtain ⟨d, hd⟩ := Option.ne_none_iff_exists'.1 h
  obtain ⟨d', hd', -⟩ := hkeep uid d hd
  simp [HasDocument, hd']

/-- The completion of a successful `createUser` writes the user document and goes home. -/
theorem handle_created {c : ι} {k : ℕ} (env : Env) (screen : Screen) (r : Request) :
    s.flight c k r ∈ (s.handle c k env (.ok (screen, [.request r, .goToHome]))).net ∧
      ((s.clients c).top = some k →
        (s.handle c k env (.ok (screen, [.request r, .goToHome]))).HomeFrom c k) := by
  have htop : (((s.modify c fun cl => cl.setScreen k screen).send c k r).clients c).top =
      (s.clients c).top := by
    simp only [send, clients_modify, if_pos]
    rfl
  have hmem : s.flight c k r ∈ ((s.modify c fun cl => cl.setScreen k screen).send c k r).net := by
    simp only [send, modify, flight, Function.update_self, List.mem_append, List.mem_singleton]
    exact .inr rfl
  simp only [handle, perform, performOne, htop]
  split_ifs with h
  · refine ⟨?_, fun _ => ?_⟩
    · obtain ⟨new, hnet, -⟩ := (sends_enterHome (s := (s.modify c fun cl =>
        cl.setScreen k screen).send c k r) (c := c) (.goToHome k)).net
      rw [hnet]
      exact List.mem_append_left _ hmem
    · rw [HomeFrom, entries_enterHome]
      exact ⟨_, List.mem_append_right _ List.mem_cons_self, rfl, rfl⟩
  · exact ⟨hmem, fun htop => absurd htop h⟩

/-- A successful `createUser` is handed over to its sign-up screen. -/
theorem deliver_created (h : s.Inv False) {i date : ℕ} (hs : s.deliver i date = some s')
    {f : Flight ι} (hi : s.net[i]? = some f) (hreq : f.request.isSignUp = true) {uid : String}
    (hrep : f.reply = some (.auth (.ok uid))) (halive : s.Alive f) :
    s'.Saving uid ∧ ((s.clients f.client).top = some f.node → s'.HomeFrom f.client f.node) := by
  obtain ⟨email, password, k, hreq⟩ := Request.isSignUp_iff.1 hreq
  have hcalls := h.calls f (List.mem_of_getElem? hi)
  rw [hreq] at hcalls
  cases hcalls with
  | createUser nd email password nameText hn hkind =>
    obtain ⟨f', r, hi', hrep', -, ⟨hdead, -⟩ | ⟨-, t, rfl, hs'⟩⟩ := deliver_cases hs
    all_goals cases hi.symm.trans hi'
    · exact absurd halive hdead
    cases hrep.symm.trans hrep'
    have htop : (((s.mark i f).signIn f.client (.auth (.ok uid))).clients f.client).top =
        (s.clients f.client).top := by
      simp only [signIn, clients_modify, if_pos]
      rfl
    have hn' : ((s.mark i f).signIn f.client (.auth (.ok uid))).At f.client f.node nd := by
      simp only [At, signIn, clients_modify, if_pos]
      exact hn
    obtain ⟨container, opener, user, screen⟩ := nd
    cases screen <;> cases hkind
    next screen =>
    have hreceive : ∀ env,
      (Screen.signUp screen).receive env (.userCreated nameText) (.auth (.ok uid)) =
        some (.ok (.signUp screen,
          [.request (.setData .users uid (userDocument uid nameText) .userSet),
          .goToHome])) := fun _ => rfl
    have hcb : f.request.callback = some (.userCreated nameText) := by rw [hreq]; rfl
    rcases hs' with ⟨-, hno⟩ | ⟨kb, n', res, hk', hn'', hres, rfl⟩
    · cases (hno _ _ hcb hn').symm.trans (hreceive _)
    cases hcb.symm.trans hk'
    cases hn'.symm.trans hn''
    cases (hreceive _).symm.trans hres
    obtain ⟨hmem, hhome⟩ := handle_created
      (s := (s.mark i f).signIn f.client (.auth (.ok uid))) (c := f.client) (k := f.node)
      (((s.mark i f).signIn f.client (.auth (.ok uid))).seenBy f.client { date := date })
      (.signUp screen) (.setData .users uid (userDocument uid nameText) .userSet)
    rw [htop] at hhome
    exact ⟨.inr ⟨_, hmem, rfl, rfl⟩, hhome⟩

omit [DecidableEq ι] in
/-- The write of a user document that does not fail creates it. -/
theorem hasDocument_of_served {req : Request} {a : Answer} {r : Reply} (h : s.Served req a t r)
    {uid : String} (hsave : req.saves = some uid) (ha : ∀ error, a ≠ .failure error) :
    t.HasDocument uid := by
  obtain ⟨fields, k, rfl⟩ := Request.saves_eq_some.1 hsave
  cases h with
  | setData => simp [HasDocument, setStore]
  | failed error => exact absurd rfl (ha error)

omit [DecidableEq ι] in
theorem HasDocument.of_sameBackend {uid : String} (h : t.HasDocument uid)
    (hsame : s'.SameBackend t) :
    s'.HasDocument uid := by
  rwa [HasDocument, hsame.store] at h

theorem Saving.step {uid : String} (h : s.Saving uid) (hs : (machine ι).Reachable s)
    (hC : s.SignUpHolds e) (hstep : s.step e = some s') : s'.Saving uid := by
  rcases h with hdoc | ⟨g, hg, hnone, hsave⟩
  · exact .inl (hdoc.step hs hstep)
  by_cases hserve : ∃ i a, e = .serve i a
  · obtain ⟨i, a, rfl⟩ := hserve
    obtain ⟨-, f, t, r, hi, -, hserved, hsame, -, -, hkeep⟩ := serve_mem hstep
    rcases hkeep g hg with rfl | hg'
    · have hdoc := hasDocument_of_served hserved hsave fun error ha =>
        hC.saved i error g (by rw [ha]) hi uid hsave
      exact .inl (hdoc.of_sameBackend hsame)
    · exact .inr ⟨g, hg', hnone, hsave⟩
  · obtain ⟨g', hg', hgrow, hnone'⟩ :=
      unanswered_of_step hstep (fun i a he => hserve ⟨i, a, he⟩) g hg hnone
    exact .inr ⟨g', hg', hnone', hgrow.request ▸ hsave⟩

/-- Serving a call keeps the invariant. -/
theorem SignUpInv.serve (h : s.SignUpInv) (hs : (machine ι).Reachable s) {i : ℕ} {a : Answer}
    (hC : s.SignUpHolds (.serve i a)) (hstep : s.step (.serve i a) = some s') : s'.SignUpInv := by
  have he : s.Extends s' := step_extends hstep
  obtain ⟨hclients, f, t, r, hi, hnone, hserved, hsame, hmem, hback, -⟩ := serve_mem hstep
  have hf := List.mem_of_getElem? hi
  have hundelivered : f.delivered = false := by
    cases hdel : f.delivered with
    | false => rfl
    | true => exact absurd hnone (h.answered f hf hdel)
  have hcreated : ∀ uid, f.request.isSignUp = true → r = .auth (.ok uid) →
      a = .created uid ∧ ∃ a ∈ s'.accounts, a.uid = uid := by
    rintro uid hsign rfl
    obtain ⟨email, password, k, hreq⟩ := Request.isSignUp_iff.1 hsign
    rw [hreq] at hserved
    rw [← hsame.accounts]
    cases hserved with
    | createUser => exact ⟨rfl, _, List.mem_append_right _ List.mem_cons_self, rfl⟩
    | failed error hr => simp at hr
  refine ⟨fun g hg hdel => ?_, fun g hg hreq uid hrep => ?_, fun g hg hreq uid hrep hdel => ?_,
    fun g hg hreq uid hrep hdel => ?_, fun g hg uid hsave hans => ?_, fun x hx => ?_⟩
  · rcases hback g hg with hg | rfl
    · exact h.answered g hg hdel
    · simp
  · rcases hback g hg with hg | rfl
    · exact (h.account g hg hreq uid hrep).imp fun x hx => ⟨he.accounts x hx.1, hx.2⟩
    · exact (hcreated uid hreq (Option.some.inj hrep)).2
  · have halive : s.Alive g := by
      rcases hback g hg with hg | rfl
      · exact h.alive g hg hreq uid hrep hdel
      · exact hC.created i uid f (by rw [(hcreated uid hreq (Option.some.inj hrep)).1]) hi
    rwa [Alive, hclients]
  · rcases hback g hg with hg | rfl
    · obtain ⟨hsaving, hhome⟩ := h.told g hg hreq uid hrep hdel
      exact ⟨hsaving.step hs hC hstep, hhome.extends he⟩
    · rw [hundelivered] at hdel
      cases hdel
  · rcases hback g hg with hg | rfl
    · exact (h.saved g hg uid hsave hans).step hs hstep
    · have hdoc := hasDocument_of_served hserved hsave fun error ha =>
        hC.saved i error f (by rw [ha]) hi uid hsave
      exact hdoc.of_sameBackend hsame
  · have hold : x ∈ s.accounts → s'.HasDocument x.uid ∨
        ∃ f ∈ s'.net, f.request.isSignUp = true ∧ f.reply = some (.auth (.ok x.uid)) := fun hx =>
      (h.owner x hx).imp (fun hdoc => hdoc.step hs hstep) fun ⟨g, hg, hreq, hrep⟩ => by
        obtain ⟨g', hg', hgrow⟩ := he.mem_net hg
        exact ⟨g', hg', hgrow.request ▸ hreq, hgrow.reply _ hrep⟩
    rw [← hsame.accounts] at hx
    generalize hreq : f.request = req at hserved
    cases hserved with
    | createUser email password uid k hfree =>
      rcases List.mem_append.1 hx with hx | hx
      · exact hold hx
      · rw [List.mem_singleton.1 hx]
        exact .inr ⟨_, hmem, by rw [hreq]; rfl, rfl⟩
    | _ => exact hold hx

/-- So does any other step. -/
theorem SignUpInv.step_of_not_serve (h : s.SignUpInv) (hs : (machine ι).Reachable s)
    (hC : s.SignUpHolds e) (hserve : ∀ i a, e ≠ .serve i a) (hstep : s.step e = some s') :
    s'.SignUpInv := by
  have he : s.Extends s' := step_extends hstep
  have haccounts : s'.accounts = s.accounts := by
    by_cases hmod : ∃ uid mod, e = .setMod uid mod
    · obtain ⟨uid, mod, rfl⟩ := hmod
      cases hstep
      rfl
    · exact (step_sameBackend hstep hserve fun uid mod he => hmod ⟨uid, mod, he⟩).accounts
  refine ⟨fun g hg hdel => ?_, fun g hg hreq uid hrep => ?_, fun g hg hreq uid hrep hdel => ?_,
    fun g hg hreq uid hrep hdel => ?_, fun g hg uid hsave hans => ?_, fun x hx => ?_⟩
  · rcases call_cases hstep hserve g hg with ⟨-, hnew⟩ | hg | ⟨i, date, f, r, -, -, hrep, -, rfl⟩
    · rw [hnew] at hdel
      cases hdel
    · exact h.answered g hg hdel
    · simp [hrep]
  · rw [haccounts]
    rcases call_cases hstep hserve g hg with ⟨hnone, -⟩ | hg | ⟨i, date, f, r, -, hi, -, -, rfl⟩
    · rw [hnone] at hrep
      cases hrep
    · exact h.account g hg hreq uid hrep
    · exact h.account f (List.mem_of_getElem? hi) hreq uid hrep
  · rcases call_cases hstep hserve g hg with ⟨hnone, -⟩ | hg | ⟨i, date, f, r, -, hi, -, -, rfl⟩
    · rw [hnone] at hrep
      cases hrep
    · exact hC.kept s' hstep g hg hreq ⟨uid, hrep⟩ hdel (h.alive g hg hreq uid hrep hdel)
    · cases hdel
  · rcases call_cases hstep hserve g hg with ⟨hnone, -⟩ | hg |
      ⟨i, date, f, r, rfl, hi, -, hnew, rfl⟩
    · rw [hnone] at hrep
      cases hrep
    · obtain ⟨hsaving, hhome⟩ := h.told g hg hreq uid hrep hdel
      exact ⟨hsaving.step hs hC hstep, hhome.extends he⟩
    · -- the answer has just been handed over
      have halive := h.alive f (List.mem_of_getElem? hi) hreq uid hrep hnew
      obtain ⟨hsaving, hhome⟩ := deliver_created (reachable_inv (hs.mono fun _ _ _ => False.elim))
        hstep hi hreq hrep halive
      exact ⟨hsaving, (hC.completed i date f rfl hi hreq halive).2.elim hhome fun hhome =>
        hhome.extends he⟩
  · have hold : s.HasDocument uid := by
      rcases call_cases hstep hserve g hg with ⟨hnone, -⟩ | hg |
        ⟨i, date, f, r, -, hi, hrep, -, rfl⟩
      · exact absurd hnone hans
      · exact h.saved g hg uid hsave hans
      · exact h.saved f (List.mem_of_getElem? hi) uid hsave hans
    exact hold.step hs hstep
  · rw [haccounts] at hx
    rcases h.owner x hx with hdoc | ⟨g, hg, hreq, hrep⟩
    · exact .inl (hdoc.step hs hstep)
    · obtain ⟨g', hg', hgrow⟩ := he.mem_net hg
      exact .inr ⟨g', hg', hgrow.request ▸ hreq, hgrow.reply _ hrep⟩

theorem SignUpInv.step (h : s.SignUpInv) (hs : (machine ι).Reachable s) (hC : s.SignUpHolds e)
    (hstep : s.step e = some s') : s'.SignUpInv := by
  by_cases hserve : ∃ i a, e = .serve i a
  · obtain ⟨i, a, rfl⟩ := hserve
    exact h.serve hs hC hstep
  · exact h.step_of_not_serve hs hC (fun i a he => hserve ⟨i, a, he⟩) hstep

/-- A sign-up that completes is all or nothing. -/
theorem SignUpInv.allOrNothing (h : s.SignUpInv) (hs : (machine ι).Reachable s)
    (hC : s.SignUpHolds e) (hstep : s.step e = some s') {f : Flight ι} (hf : s.Completes f e) :
    s'.AllOrNothing f := by
  have hinv : s.Inv False := reachable_inv (hs.mono fun _ _ _ => False.elim)
  have he : s.Extends s' := step_extends hstep
  cases hf with
  | failed i date error hi hreq halive hrep =>
    -- no failure is handed over
    obtain ⟨⟨uid, hok⟩, -⟩ := hC.completed i date f rfl hi hreq halive
    rw [hrep] at hok
    cases hok
  | saved i date g uid hi hsave halive hf hreq hclient hnode hrep =>
    left
    have hg := List.mem_of_getElem? hi
    obtain ⟨g', r, hi', hans, -, -⟩ := deliver_cases hstep
    cases hi.symm.trans hi'
    have hdoc := h.saved g hg uid hsave (by simp [hans])
    obtain ⟨a, ha, hauid⟩ := h.account f hf hreq uid hrep
    obtain ⟨fields, k, hgreq⟩ := Request.saves_eq_some.1 hsave
    have hcalls := hinv.calls g hg
    rw [hgreq] at hcalls
    cases hcalls with
    | userSet uid nameText hu htold =>
      obtain ⟨f₀, hf₀, hc₀, hn₀, ⟨email, password, hreq₀⟩, hrep₀, hdel₀⟩ := htold
      have hhome := (h.told f₀ hf₀ (by rw [hreq₀]; rfl) uid hrep₀ hdel₀).2
      rw [hc₀, hn₀, ← hclient, ← hnode] at hhome
      exact ⟨uid, hrep, ⟨a, he.accounts a ha, hauid⟩, hdoc.step hs hstep, hhome.extends he⟩

/-- **A sign-up is all or nothing** in the runs whose steps meet the condition: every sign-up that
completes leaves the account, its document and the home screen, or nothing but an error on the
sign-up screen; and with no sign-up in flight every account has its document. -/
theorem signUp_all_or_nothing {s₀ : System ι} (h : s₀.Initial) {es : List (Event ι)}
    (hrun : (machine ι).Steps SignUpHolds s₀ es s) :
    (machine ι).Steps (fun s e => ∀ s' f, s.step e = some s' → s.Completes f e → s'.AllOrNothing f)
        s₀ es s ∧
      (¬ s.SignUpInFlight → ∀ a ∈ s.accounts, s.HasDocument a.uid) := by
  have hinv : s.SignUpInv := (hrun.via (.init h)).induct (fun _ => initial_signUpInv)
    fun _ _ _ hvia hi hC hstep => hi.step hvia.reachable hC hstep
  refine ⟨?_, fun hno a ha => hinv.hasDocument hno ha⟩
  refine hrun.congr (I := fun s => (machine ι).Reachable s ∧ s.SignUpInv)
    ⟨.init h, initial_signUpInv h⟩
    fun s e s' ⟨hs, hi⟩ hstep hC => ⟨fun s'' f hstep' hf => hi.allOrNothing hs hC hstep' hf, ?_⟩
  exact ⟨.step hs trivial hstep, hi.step hs hC hstep⟩

end Steps

/-! ## Two sign-ups -/

/-- Carl signs up: an account is created for him and the write of his document answered. -/
def carlSignsUp (a : Answer) : List (Event Unit) :=
  signUpEvents () "Carl" "carl@cis.edu.hk" "secret12!" ++
  [.serve 0 (.created "carl"), .deliver 0 0, .serve 1 a]

instance (s : System Unit) : Decidable s.SignUpInFlight := by
  unfold SignUpInFlight
  infer_instance

/-- The step ends no process that has made a call. -/
def processesKept (s : System Unit) (e : Event Unit) : Bool :=
  (s.step e).all fun s' => s.net.all fun f => decide (s.Alive f → s'.Alive f)

/-- The event is as the condition on a step wants it. -/
def signUpSucceeds (s : System Unit) : Event Unit → Bool
  | .serve i (.created _) => (s.net[i]?).all fun f => decide (s.Alive f)
  | .serve _ (.failure _) => false
  | .deliver i _ => (s.net[i]?).all fun f =>
    match f.reply with
    | some (.auth (.ok _)) => decide ((s.clients f.client).top = some f.node)
    | _ => !f.request.isSignUp
  | _ => true

theorem signUpHolds_of_checked (s : System Unit) (e : Event Unit)
    (h : (s.processesKept e && s.signUpSucceeds e) = true) : s.SignUpHolds e := by
  rw [Bool.and_eq_true] at h
  obtain ⟨hkept, hevent⟩ := h
  refine ⟨?_, fun s' hs f hf _ _ _ halive => ?_, ?_, ?_⟩
  · rintro i uid f rfl hi
    simpa [signUpSucceeds, hi] using hevent
  · rw [processesKept, hs, Option.all_some, List.all_eq_true] at hkept
    exact of_decide_eq_true (hkept f hf) halive
  · rintro i date f rfl hi hreq -
    simp only [signUpSucceeds, hi, Option.all_some] at hevent
    split at hevent
    · next uid hrep => exact ⟨⟨uid, hrep⟩, .inl (of_decide_eq_true hevent)⟩
    · simp [hreq] at hevent
  · rintro i error f rfl
    cases hevent

/-- Carl has an account, and no sign-up is in flight. -/
def CarlSettled (s : System Unit) : Prop :=
  ¬ s.SignUpInFlight ∧ ⟨"carl@cis.edu.hk", "secret12!", "carl"⟩ ∈ s.accounts

instance (s : System Unit) : Decidable s.CarlSettled := by
  unfold CarlSettled
  infer_instance

theorem signUp_all_or_nothing_carl : ∃ s : System Unit, s.CarlSettled ∧ s.HasDocument "carl" ∧
    (machine Unit).Steps SignUpHolds (start annAndBob)
    (carlSignsUp .success ++ [.deliver 1 0]) s := by
  obtain ⟨s, hs, hp⟩ := (machine Unit).exists_of_runWhile _ signUpHolds_of_checked (start annAndBob)
    (carlSignsUp .success ++ [.deliver 1 0]) (fun s => decide s.CarlSettled)
    (by decide +kernel)
  obtain ⟨hno, hmem⟩ : s.CarlSettled := of_decide_eq_true hp
  exact ⟨s, ⟨hno, hmem⟩, (signUp_all_or_nothing (initial_start annAndBob) hs).2 hno _ hmem, hs⟩

/-- The write of Carl's document, call 1, completes the sign-up that call 0 began; his account is
there, a document is not. -/
def HalfDone (s : System Unit) : Bool :=
  (s.net[0]?).any fun f => (s.net[1]?).any fun g =>
    f.request.isSignUp && decide (g.request.saves = some "carl") && decide (s.Alive g) &&
    decide (f.node = g.node) &&
    (match f.reply with | some (.auth (.ok uid)) => uid == "carl" | _ => false) &&
    (s.step (.deliver 1 0)).any fun s' => decide s'.CarlSettled &&
      decide ((s'.store .users).lookup "carl" = none)

/-- **A sign-up can be left half done**: when the write of the user document fails, neither all nor
nothing has happened, and an account without a user document is left. -/
theorem signUp_half_done : ∃ (s s' : System Unit) (e : Event Unit) (f : Flight Unit),
    (machine Unit).Reachable s ∧ s.step e = some s' ∧ s.Completes f e ∧ ¬ s'.AllOrNothing f ∧
      ¬ s'.SignUpInFlight ∧ ∃ a ∈ s'.accounts, ¬ s'.HasDocument a.uid := by
  obtain ⟨s, hs, hp⟩ := (machine Unit).exists_of_run (start annAndBob)
    (carlSignsUp (.failure "Missing or insufficient permissions.")) HalfDone (by decide +kernel)
  obtain ⟨f, hf, hp⟩ := (Option.any_eq_true _ _).1 hp
  obtain ⟨g, hg, hp⟩ := (Option.any_eq_true _ _).1 hp
  simp only [Bool.and_eq_true, decide_eq_true_eq] at hp
  obtain ⟨⟨⟨⟨⟨hsign, hsave⟩, halive⟩, hnode⟩, hrep⟩, hstep⟩ := hp
  obtain ⟨s', hs', hend⟩ := (Option.any_eq_true _ _).1 hstep
  rw [Bool.and_eq_true, decide_eq_true_eq, decide_eq_true_eq] at hend
  obtain ⟨⟨hno, hmem⟩, hnone⟩ := hend
  have hok : f.reply = some (.auth (.ok "carl")) := by
    split at hrep
    · next uid hr => rw [hr, eq_of_beq hrep]
    · cases hrep
  refine ⟨s, s', .deliver 1 0, f, hs.reachable (reachable_start _), hs', ?_, ?_, hno, _, hmem,
    fun hdoc => hdoc hnone⟩
  · exact .saved 1 0 g "carl" hg hsave halive (List.mem_of_getElem? hf) hsign rfl hnode hok
  · rintro (⟨uid, hrep', -, hdoc, -⟩ | ⟨hnothing, -⟩)
    · cases hok.symm.trans hrep'
      exact hdoc hnone
    · exact hnothing "carl" hok _ hmem rfl

end System

end ArtsExplorer
