import ArtsExplorer.System.Start

/-!
# Decisions on posts and comments

A decision reaches the store as an `updateData` or as a `delete`, whatever has happened to the
document since the moderator's list was loaded. A deletion stands: the document never comes back
(`Gone`). An approval is never taken back, but the `delete` of a moderator who still has the
document on a list removes it (`decision_overturned`).
-/

namespace ArtsExplorer

open Foundations

namespace System

variable {ι : Type} {s s' t : System ι} {n : CollectionName} {id : String} {sync : Prop}

/-! ## Documents that are gone -/

/-- Document `id` was created and is not stored any more. -/
def Gone (s : System ι) (n : CollectionName) (id : String) : Prop :=
  s.Known n id ∧ (s.store n).lookup id = none

theorem known_of_stored (h : s.Inv sync) (hn : n ≠ .users) {d : Document}
    (hd : (s.store n).lookup id = some d) : s.Known n id := by
  obtain ⟨fields, hc, -⟩ := ((documentOK_iff_recorded hn).1 (h.stored n id d hd)).created
  exact ⟨fields, hc⟩

section Steps

variable [DecidableEq ι]

theorem Gone.step (h : s.Gone n id) (hfresh : s.Fresh) {e : Event ι} (hs : s.step e = some s') :
    s'.Gone n id := by
  obtain ⟨⟨fields, hc⟩, hl⟩ := h
  refine ⟨⟨fields, (step_extends hs).created hc⟩, ?_⟩
  have hch := step_changes hfresh hs n id
  rw [hl] at hch
  generalize (s'.store n).lookup id = o at hch
  cases hch with
  | unchanged => rfl
  | setData f fields' k hf hreq =>
    exact absurd hc ((hfresh.of_setData hf.mem hf.unserved hreq).2.2 fields)
  | delete => rfl

/-- **A document that is gone never comes back.** -/
theorem Gone.steps {C : System ι → Event ι → Prop} {es : List (Event ι)} (h : s.Gone n id)
    (hs : (machine ι).Reachable s) (hrun : (machine ι).Steps C s es t) : t.Gone n id := by
  refine hrun.rel (R := fun s t => s.Gone n id → t.Gone n id) hs (fun _ h => h)
    (fun _ _ _ h₁ h₂ h => h₂ (h₁ h)) (fun s e s' hvia _ hstep hg => ?_) h
  exact hg.step (reachable_fresh hvia) hstep

/-- What has been denied is gone. -/
theorem gone_of_denied (hs : (machine ι).Reachable s) (hd : s.Denied n id) : s.Gone n id := by
  refine hs.induct (I := fun s => s.Denied n id → s.Gone n id) (fun s hinit => ?_)
    (fun s e s' hvia hi _ hstep => ?_) hd
  · rintro ⟨f, hf, -⟩
    rw [hinit.net] at hf
    cases hf
  · rintro ⟨f, hf, row, hreq, hrep⟩
    have hinv : s.Inv False := reachable_inv (hvia.mono fun _ _ _ => False.elim)
    rcases answered_cases hstep hf hrep with ⟨f₀, hf₀, hg, hrep₀⟩ |
      ⟨i, a, t, rfl, hserved, hsame, f₀, hf₀, -, rfl⟩
    · have hold : s.Denied n id := ⟨f₀, hf₀, row, hg.request ▸ hreq, hrep₀⟩
      exact (hi hold).step (reachable_fresh hvia) hstep
    · -- it has just been deleted
      simp only at hreq
      have hcalls := hinv.calls f₀ hf₀
      rw [hreq] at hcalls hserved
      obtain ⟨-, -, -, d, -, hrec, -⟩ := hcalls.delete_cases
      obtain ⟨fields, hc, -⟩ := hrec.created
      have he : s.Extends s' := step_extends (e := .serve i a) hstep
      refine ⟨⟨fields, he.created hc⟩, ?_⟩
      cases hserved with
      | delete => simp [← hsame.store, setStore]
      | failed e hr => simp at hr

/-! ## The law -/

/-- **A decision stands**, but for one case. From a reachable state on, a document that is gone
stays away, and an approved one stays approved until the denial of a moderator who has read it while
it was pending. -/
theorem decision_stands (hs : (machine ι).Reachable s) {es : List (Event ι)}
    (hrun : (machine ι).Steps (fun _ _ => True) s es t) (hn : n ≠ .users) {d : Document}
    (hd : (s.store n).lookup id = some d) :
    (d "approved" = some (.bool true) →
      (∃ d', (t.store n).lookup id = some d' ∧ d' "approved" = some (.bool true)) ∨
        ((t.store n).lookup id = none ∧ ¬ s.Denied n id ∧
          ∃ f ∈ t.net, ∃ row, f.request = .delete n id (.denied row) ∧
            f.reply = some (.completion none) ∧ t.Moderates f.client f.node n ∧
            t.ReadPending f.client f.node n id)) ∧
      ((t.store n).lookup id = none → ∀ es' u, (machine ι).Steps (fun _ _ => True) t es' u →
        (u.store n).lookup id = none) := by
  have ht : (machine ι).Reachable t := hrun.via hs
  have hinv : s.Inv False := reachable_inv (hs.mono fun _ _ _ => False.elim)
  have hinv' : t.Inv False := reachable_inv (ht.mono fun _ _ _ => False.elim)
  have he : s.Extends t := hrun.rel hs Extends.refl (fun _ _ _ => Extends.trans)
    fun _ _ _ _ _ => step_extends
  have hknown : t.Known n id := he.known (known_of_stored hinv hn hd)
  refine ⟨fun ha => ?_, fun hl es' u hrun' => ?_⟩
  · cases hl : (t.store n).lookup id with
    | some d' =>
      refine .inl ⟨d', rfl, hinv'.approved n id d' hl (he.approved ?_)⟩
      rcases ((documentOK_iff_recorded hn).1 (hinv.stored n id d hd)).approved with ⟨-, h⟩ | h
      · exact h
      · rw [ha] at h
        cases h
    | none =>
      obtain ⟨f, hf, row, hreq, hrep⟩ := (hinv'.kept n id hknown).resolve_left (absurd hl)
      have hcalls := hinv'.calls f hf
      rw [hreq] at hcalls
      obtain ⟨-, -, hm, hread⟩ := hcalls.delete_cases
      refine .inr ⟨rfl, fun hden => ?_, f, hf, row, hreq, hrep, hm, hread⟩
      rw [(gone_of_denied hs hden).2] at hd
      cases hd
  · exact (Gone.steps ⟨hknown, hl⟩ ht hrun').2

end Steps

/-! ## Two moderators -/

/-- Mo and Max both load the list with Ann's post, and Mo approves it. -/
def approvedByMo : List (Event ℕ) :=
  pendingPostEvents ++ logInEvents 2 8 "max@cis.edu.hk" "pass" ++ moderateEvents 2 10 3 ++
  [.act 1 5 (.approve 0) {}, .serve 12 .success]

/-- Max denies it from the list he loaded before. -/
def deniedByMax : List (Event ℕ) := [.act 2 5 (.deny 0) {}, .serve 13 .success]

/-- Ann's post is approved. -/
def PostApproved (s : System ℕ) : Prop :=
  ∃ d ∈ (s.store .posts).lookup "post", d "approved" = some (.bool true)

instance (s : System ℕ) : Decidable s.PostApproved := by
  unfold PostApproved
  infer_instance

/-- The denial goes through. -/
theorem exists_overturned :
    ∃ s t : System ℕ, (machine ℕ).Reachable s ∧ s.PostApproved ∧
      (machine ℕ).Steps (fun _ _ => True) s deniedByMax t ∧
      (t.store .posts).lookup "post" = none := by
  obtain ⟨s, hs, hp⟩ := (machine ℕ).exists_of_run (start annMoAndMax) approvedByMo
    (fun s => decide s.PostApproved &&
      ((machine ℕ).run s deniedByMax).any fun t => ((t.store .posts).lookup "post").isNone)
    (by decide +kernel)
  rw [Bool.and_eq_true, decide_eq_true_eq] at hp
  obtain ⟨t, ht, hnone⟩ := (machine ℕ).exists_of_run s deniedByMax _ hp.2
  exact ⟨s, t, hs.via (reachable_start _), hp.1, ht, by simpa using hnone⟩

/-- **An approval can be overturned**: not every approved post stays stored. -/
theorem decision_overturned :
    ¬ ∀ (s t : System ℕ) (es : List (Event ℕ)) (id : String) (d : Document),
      (machine ℕ).Reachable s → (s.store .posts).lookup id = some d →
        d "approved" = some (.bool true) → (machine ℕ).Steps (fun _ _ => True) s es t →
          (t.store .posts).lookup id ≠ none := by
  intro hstands
  obtain ⟨s, t, hs, ⟨d, hd, ha⟩, ht, hnone⟩ := exists_overturned
  exact hstands s t deniedByMax "post" d hs hd ha ht hnone

/-- In that run the post falls to a denial, and never comes back. -/
theorem decision_stands_overturned :
    ∃ s t : System ℕ, s.PostApproved ∧ ¬ s.Denied .posts "post" ∧
      (∃ f ∈ t.net, t.Moderates f.client f.node .posts ∧
        t.ReadPending f.client f.node .posts "post") ∧
      ∀ es u, (machine ℕ).Steps (fun _ _ => True) t es u →
        (u.store .posts).lookup "post" = none := by
  obtain ⟨s, t, hs, ⟨d, hd, ha⟩, ht, hnone⟩ := exists_overturned
  obtain ⟨hstands, hgone⟩ := decision_stands hs ht (n := .posts) (by decide) hd
  rcases hstands ha with ⟨d', hd', -⟩ | ⟨-, hden, f, hf, row, -, -, hm, hread⟩
  · rw [hnone] at hd'
    cases hd'
  · exact ⟨s, t, ⟨d, hd, ha⟩, hden, ⟨f, hf, hm, hread⟩, hgone hnone⟩

end System

end ArtsExplorer
