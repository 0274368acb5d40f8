import ArtsExplorer.System.Start

/-!
# The moderation gate

What the app publishes has been approved by a moderator, and what its lists of posts show has been
approved or is the user's own. The saved list reads posts by their ids, with no filter; that it
keeps to the rule is a fact about every list from which a post can be saved, and about every user
document.

It depends on a session staying that of one user (`reachable_inv` with `sync`): when the answer of
a second log-in arrives after the first has opened the tab bar, the save button of the profile
loaded for the first user saves to the document of the second (`moderation_gate_overlap`).
-/

namespace ArtsExplorer

open Foundations

namespace System

variable {ι : Type} (s : System ι)

/-! ## The law -/

/-- Every approved post and comment was approved by a press on a moderation screen opened from the
menu of a moderator. -/
def ApprovedByModerators : Prop :=
  ∀ n id d, n ≠ .users → (s.store n).lookup id = some d → d "approved" = some (.bool true) →
    ∃ f ∈ s.net, f.request = approveRequest n id ∧ f.reply = some (.completion none) ∧
      s.Moderates f.client f.node n

/-- Every post that screen `n`, screen `k` of device `c`, lists was approved or by the user the
screen was loaded for, in the document that the screen read. -/
def ListsFit (c : ι) (k : ℕ) (n : Node) : Prop :=
  ∀ l u, n.screen.listing = some l → n.user = some u → ∀ post ∈ l.postsToShow.items,
    ∃ d, s.ReadBy c k d ∧ AEPost.ofDocument d = .ok post ∧ FitsDocument u d

/-- Every comment that a screen shows was approved in the document that the screen read. -/
def CommentsApproved (c : ι) (k : ℕ) (n : Node) : Prop :=
  ∀ v, n.screen = .comments v → ∀ x ∈ v.commentsToShow.items,
    ∃ d, s.ReadBy c k d ∧ Comment.ofDocument true d = .ok x ∧ d "approved" = some (.bool true)

variable {s} {sync : Prop}

/-! ## From the invariant -/

theorem Inv.approvedByModerators (h : s.Inv sync) : s.ApprovedByModerators := by
  intro n id d hn hd ha
  have hrec := (documentOK_iff_recorded hn).1 (h.stored n id d hd)
  rcases hrec.approved with ⟨-, f, hf, hreq, hrep⟩ | hpending
  · refine ⟨f, hf, hreq, hrep, ?_⟩
    have hcalls := h.calls f hf
    rw [hreq] at hcalls
    rcases hcalls.updateData_cases with ⟨-, hups, -⟩ | ⟨-, -, p, v, hups, -⟩ | ⟨-, hm, -⟩
    · rcases hups "approved" (by simp) with h | h | h <;> exact absurd h (by decide)
    · simp at hups
    · exact hm
  · rw [ha] at hpending
    cases hpending

/-- The lists other than the saved one ask the backend for posts that fit. -/
theorem Inv.listsFit (h : s.Inv sync) {c : ι} {k : ℕ} {n : Node} (hn : s.At c k n)
    (hk : n.screen.kind = .saved → sync) : s.ListsFit c k n := by
  intro l u hl hu post hp
  have hok := h.screens c k n hn
  obtain ⟨container, opener, user, screen⟩ := n
  cases screen <;> simp only [Screen.listing, reduceCtorEq, Option.some.injEq] at hl <;> subst hl
  case home v =>
    obtain ⟨d, hr, hd, -, ha⟩ := hok.1.posts post hp
    exact ⟨d, hr, hd, .inl ha⟩
  case otherProfile v =>
    obtain ⟨d, hr, hd, -, ha⟩ := ListOK.posts hok post hp
    exact ⟨d, hr, hd, .inl ha⟩
  case saved v =>
    obtain ⟨d, hr, hd, -, hfit⟩ := ListOK.posts hok post hp
    exact ⟨d, hr, hd, hfit (hk rfl) u hu⟩
  case userProfile v =>
    obtain ⟨d, hr, hd, -, hown⟩ := hok.2.posts post hp
    have huser : user = some v.listing.opID := hok.1
    cases huser.symm.trans hu
    exact ⟨d, hr, hd, .inr hown⟩

theorem Inv.commentsApproved (h : s.Inv sync) {c : ι} {k : ℕ} {n : Node} (hn : s.At c k n) :
    s.CommentsApproved c k n := by
  intro v hv x hx
  have hok := h.screens c k n hn
  obtain ⟨container, opener, user, screen⟩ := n
  cases hv
  obtain ⟨d, hr, hd, -, ha⟩ := hok.2 x hx
  exact ⟨d, hr, hd, ha⟩

section Reachable

variable {ι : Type} [DecidableEq ι] {s : System ι}

/-- **The moderation gate.** In every reachable state approvals come from moderators, comments that
are shown were approved, and so were the posts on every list but the user's own; the saved list
keeps to it, and the screens in front belong to the signed-in user, as long as no log-in or sign-up
is answered late. -/
theorem moderation_gate (h : (machine ι).Reachable s) :
    s.ApprovedByModerators ∧
      (∀ c k n, s.At c k n → s.CommentsApproved c k n) ∧
      (∀ c k n, s.At c k n → n.screen.kind ≠ .saved → s.ListsFit c k n) ∧
      ((machine ι).Via (fun s e => ∀ c, ¬ s.Late c e) s →
        ∀ c k n, s.At c k n → s.ListsFit c k n ∧
          (n.container = (s.clients c).front → (s.clients c).top = none →
            n.user = (s.clients c).currentUser)) := by
  have hinv : s.Inv False := reachable_inv (h.mono fun _ _ _ => False.elim)
  refine ⟨hinv.approvedByModerators, fun c k n hn => hinv.commentsApproved hn,
    fun c k n hn hk => hinv.listsFit hn fun hs => absurd hs hk, fun hlate c k n hn => ⟨?_, ?_⟩⟩
  · have hsync : s.Inv True := reachable_inv (hlate.mono fun _ _ hl _ => hl)
    exact hsync.listsFit hn fun _ => trivial
  · intro hc ht
    have hnav := reachable_nav (fun _ => True) (fun _ => False)
      (hlate.mono fun _ _ hl c => ⟨fun _ => hl c, False.elim⟩)
    exact (hnav c).user trivial k n hn hc ht

end Reachable

/-- Ann's post is approved by Mo, and then her home screen is reloaded. -/
def approvedPost : List (Event ℕ) :=
  pendingPostEvents ++ [.act 1 5 (.approve 0) {}, .serve 8 .success, .act 0 3 .refresh {}] ++
  answerEvents 9

/-- The post is approved and on Ann's home screen, screen 3. -/
def ShowsApproved (s : System ℕ) : Prop :=
  (∃ d ∈ (s.store .posts).lookup "post", d "approved" = some (.bool true)) ∧
    ∃ n ∈ (s.clients 0).nodes[3]?, ∃ l ∈ n.screen.listing,
      l.postsToShow.items.map AEPost.id = ["post"]

instance (s : System ℕ) : Decidable s.ShowsApproved := by
  unfold ShowsApproved
  infer_instance

theorem moderation_gate_approved :
    ∃ s : System ℕ, s.ShowsApproved ∧ s.ApprovedByModerators ∧
      ∀ c k n, s.At c k n → s.CommentsApproved c k n ∧ s.ListsFit c k n := by
  obtain ⟨s, hs, hp⟩ := (machine ℕ).exists_of_runWhile _ not_late_of_isLate (start annMoAndMax)
    approvedPost (fun s => decide s.ShowsApproved) (by decide +kernel)
  have hvia := hs.via (reachable_start annMoAndMax)
  obtain ⟨happ, hcom, -, hfit⟩ := moderation_gate hvia.reachable
  exact ⟨s, of_decide_eq_true hp, happ, fun c k n hn => ⟨hcom c k n hn, (hfit hvia c k n hn).1⟩⟩

/-! ## Overlapping log-ins -/

/-- No answer to a call holds an approved document. -/
def readsNothingApproved {ι : Type} (s : System ι) : Bool :=
  s.net.all fun f =>
    match f.reply with
    | some (.document (some d)) => d "approved" != some (.bool true)
    | some (.documents (.ok ds)) => ds.all fun d => d "approved" != some (.bool true)
    | _ => true

theorem not_approved_of_readBy {ι : Type} {s : System ι} {c : ι} {k : ℕ} {d : Document}
    (h : s.readsNothingApproved = true) (hr : s.ReadBy c k d) :
    d "approved" ≠ some (.bool true) := by
  obtain ⟨f, hf, -, -, -, hrep⟩ := hr
  have hall := List.all_eq_true.1 h f hf
  rcases hrep with hrep | ⟨ds, hrep, hd⟩
  · simpa [hrep] using hall
  · rw [hrep] at hall
    simpa using List.all_eq_true.1 hall d hd

/-- Bob's log-in is answered when the profile has been loaded for Ann; her pending post is then
saved for Bob and shown on his saved list. -/
def overlappingLogIns : List (Event Unit) :=
  overlapEvents ++ [.act () 2 .uploadTab {}] ++ uploadEvents () 3 4 "post" "Sketch" 7 ++
  [.act () 2 .profileTab {}] ++ answerEvents 5 ++ [.act () 5 (.table (.cellForRowAt 0 none)) {}] ++
  answerEvents 1 ++
  [.act () 5 (.table (.pressedSaveButton 0)) {}, .serve 8 .success,
   .act () 5 .saveAndCancelTapped {}] ++ answerEvents 9 ++ answerEvents 10

/-- Bob's saved list, screen 6, shows a post by Ann. -/
def ShowsAnnToBob (s : System Unit) : Prop :=
  ∃ n ∈ (s.clients ()).nodes[6]?, ∃ l ∈ n.screen.listing, n.screen.kind = .saved ∧
    n.user = some "bob" ∧ (s.clients ()).currentUser = some "bob" ∧
    l.postsToShow.items.map AEPost.opID = ["ann"]

instance (s : System Unit) : Decidable s.ShowsAnnToBob := by
  unfold ShowsAnnToBob
  infer_instance

theorem moderation_gate_overlap :
    ∃ s : System Unit, (machine Unit).Reachable s ∧ ∃ n, s.At () 6 n ∧ n.screen.kind = .saved ∧
      n.user = (s.clients ()).currentUser ∧ ¬ s.ListsFit () 6 n := by
  obtain ⟨s, hs, hp⟩ := (machine Unit).exists_of_run (start annAndBob) overlappingLogIns
    (fun s => s.readsNothingApproved && decide s.ShowsAnnToBob) (by decide +kernel)
  rw [Bool.and_eq_true, decide_eq_true_eq] at hp
  obtain ⟨hread, n, hn, l, hl, hk, hu, hcur, hposts⟩ := hp
  refine ⟨s, hs.via (reachable_start _), n, hn, hk, hu.trans hcur.symm, fun hfit => ?_⟩
  obtain ⟨post, hitems, hop⟩ := List.map_eq_singleton_iff.1 hposts
  obtain ⟨d, hr, hd, ha | hown⟩ :=
    hfit l "bob" hl hu post (by rw [hitems]; exact List.mem_cons_self)
  · exact not_approved_of_readBy hread hr ha
  · rw [(AEPost.ofDocument_eq_ok.1 hd).2.1, hop] at hown
    simp at hown

end System

end ArtsExplorer
