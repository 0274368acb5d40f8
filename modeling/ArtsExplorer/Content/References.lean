import ArtsExplorer.System.Start

/-!
# References to posts

The `savedPosts` of a user document and the `postID` of a comment name posts. They are taken from
rows and screens, so the post was there once; but a denial deletes the post and nothing else, and
the author sees the own pending posts on the profile, where they can be saved and commented on. So a
reference names a stored post or one that has been denied (`references_stored_or_denied`), and both
kinds of reference can outlive the post (`references_outlive`).
-/

namespace ArtsExplorer

open Foundations

namespace System

variable {ι : Type} (s : System ι) {sync : Prop}

/-! ## References -/

/-- User `u` has saved post `id`. -/
def Saved (u id : String) : Prop :=
  ∃ d, (s.store .users).lookup u = some d ∧ id ∈ Value.elements (d "savedPosts")

/-- Comment `x` is stored and on post `id`. -/
def CommentOn (x id : String) : Prop :=
  ∃ d, (s.store .comments).lookup x = some d ∧ d "postID" = some (.string id)

def Stored (n : CollectionName) (id : String) : Prop := (s.store n).lookup id ≠ none

/-- A moderator has deleted post `id`, from a list read while the post was pending. -/
def DeniedByModerator (id : String) : Prop :=
  ∃ f ∈ s.net, ∃ row, f.request = .delete .posts id (.denied row) ∧
    f.reply = some (.completion none) ∧ s.Moderates f.client f.node .posts ∧
      s.ReadPending f.client f.node .posts id

/-- Post `id` is by `u`. -/
def PostBy (u id : String) : Prop :=
  ∃ fields, s.Created .posts id fields ∧ fields.lookup "opID" = some (.string u)

instance (u id : String) : Decidable (s.Saved u id) :=
  inferInstanceAs
    (Decidable (∃ d ∈ (s.store .users).lookup u, id ∈ Value.elements (d "savedPosts")))

instance (x id : String) : Decidable (s.CommentOn x id) :=
  inferInstanceAs (Decidable (∃ d ∈ (s.store .comments).lookup x, d "postID" = some (.string id)))

variable {s}

/-! ## The law -/

theorem Inv.stored_or_denied (h : s.Inv sync) {id : String} (hk : s.Known .posts id) :
    s.Stored .posts id ∨ s.DeniedByModerator id := by
  refine (h.kept .posts id hk).imp_right ?_
  rintro ⟨f, hf, row, hreq, hrep⟩
  have hcalls := h.calls f hf
  rw [hreq] at hcalls
  obtain ⟨-, -, hm, hread⟩ := hcalls.delete_cases
  exact ⟨f, hf, row, hreq, hrep, hm, hread⟩

theorem Inv.known_of_saved (h : s.Inv sync) {u id : String} (hs : s.Saved u id) :
    s.Known .posts id ∧ (sync → s.Fit u id) := by
  obtain ⟨d, hd, hid⟩ := hs
  exact h.stored .users u d hd id hid

/-- A comment is on a post that was there. -/
theorem Inv.commentOn (h : s.Inv sync) {x : String} (hx : s.Stored .comments x) :
    ∃ id, s.CommentOn x id ∧ s.Known .posts id := by
  obtain ⟨d, hd⟩ := Option.ne_none_iff_exists'.1 hx
  have hrec : s.Recorded .comments x d := h.stored .comments x d hd
  obtain ⟨fields, hc, hfields⟩ := hrec.created
  obtain ⟨message, opName, opID, postID, date, rfl, hk⟩ := h.created_comments hc
  exact ⟨postID, ⟨d, hd, hfields "postID" (by decide)⟩, hk⟩

/-- **A reference names a post that is stored or that a moderator has denied.** In runs where no
log-in or sign-up is answered late, a saved post that is gone was approved before or is the user's
own. -/
theorem references_stored_or_denied [DecidableEq ι] (h : (machine ι).Reachable s) :
    (∀ u id, s.Saved u id → s.Stored .posts id ∨ s.DeniedByModerator id) ∧
      (∀ x, s.Stored .comments x → ∃ id, s.CommentOn x id ∧
        (s.Stored .posts id ∨ s.DeniedByModerator id)) ∧
      ((machine ι).Via (fun s e => ∀ c, ¬ s.Late c e) s → ∀ u id, s.Saved u id →
        ¬ s.Stored .posts id →
        s.Approved .posts id ∨ s.PostBy u id) := by
  have hinv : s.Inv False := reachable_inv (h.mono fun _ _ _ => False.elim)
  refine ⟨fun u id hs => hinv.stored_or_denied (hinv.known_of_saved hs).1, fun x hx => ?_,
    fun hvia u id hs _ => ?_⟩
  · obtain ⟨id, hon, hk⟩ := hinv.commentOn hx
    exact ⟨id, hon, hinv.stored_or_denied hk⟩
  · have hsync : s.Inv True := reachable_inv (hvia.mono fun _ _ hl _ => hl)
    exact (hsync.known_of_saved hs).2 trivial

/-! ## A denied post -/

/-- Ann uploads a post, and from her profile saves it and comments on it. -/
def ownPostEvents : List (Event ℕ) :=
  logInEvents 0 0 "ann@cis.edu.hk" "pass" ++ [.act 0 2 .uploadTab {}] ++
  uploadEvents 0 2 4 "post" "Sketch" 7 ++ [.act 0 2 .profileTab {}] ++ answerEvents 4 ++
  [.act 0 5 (.table (.cellForRowAt 0 none)) {}, .act 0 5 (.table (.pressedSaveButton 0)) {},
   .serve 7 .success, .act 0 5 (.table (.pressedViewComments 0)) {},
   .act 0 6 (.type .commentTextField "First!") {},
   .act 0 6 .sendCommentPressed { uuid := "comment" }] ++
  answerEvents 9 ++ [.serve 10 .success]

/-- A moderator denies the post. -/
def denyOwnPost : List (Event ℕ) :=
  ownPostEvents ++ logInEvents 1 11 "mo@cis.edu.hk" "pass" ++ moderateEvents 1 13 3 ++
  [.act 1 5 (.deny 0) {}, .serve 15 .success]

/-- Ann and her comment refer to a post that is gone. -/
def ReferToGone (s : System ℕ) : Prop :=
  s.Saved "ann" "post" ∧ s.CommentOn "comment" "post" ∧ ¬ s.Stored .posts "post"

instance (s : System ℕ) : Decidable s.ReferToGone := by
  unfold ReferToGone Stored
  infer_instance

theorem references_stored_or_denied_own : ∃ s : System ℕ, s.ReferToGone ∧
    s.DeniedByModerator "post" ∧ (s.Approved .posts "post" ∨ s.PostBy "ann" "post") := by
  obtain ⟨s, hs, hp⟩ := (machine ℕ).exists_of_runWhile _ not_late_of_isLate (start annMoAndMax)
    denyOwnPost (fun s => decide s.ReferToGone) (by decide +kernel)
  obtain ⟨hsaved, hon, hno⟩ : s.ReferToGone := of_decide_eq_true hp
  have hvia := hs.via (reachable_start annMoAndMax)
  obtain ⟨hstored, -, hown⟩ := references_stored_or_denied hvia.reachable
  exact ⟨s, ⟨hsaved, hon, hno⟩, (hstored "ann" "post" hsaved).resolve_left hno,
    hown hvia "ann" "post" hsaved hno⟩

/-- **References outlive a denied post.** -/
theorem references_outlive : ∃ s : System ℕ, (machine ℕ).Reachable s ∧ s.Saved "ann" "post" ∧
    s.CommentOn "comment" "post" ∧ ¬ s.Stored .posts "post" := by
  obtain ⟨s, hs, hp⟩ := (machine ℕ).exists_of_run (start annMoAndMax) denyOwnPost
    (fun s => decide s.ReferToGone) (by decide +kernel)
  have hgone : s.ReferToGone := of_decide_eq_true hp
  exact ⟨s, hs.reachable (reachable_start _), hgone⟩

end System

end ArtsExplorer
