import ArtsExplorer.Foundations.Board
import ArtsExplorer.Foundations.Refinement
import ArtsExplorer.System.Start

/-!
# The app is a moderated board

With all its devices, calls in flight and answers in any order, the app keeps its posts and comments
as a moderated board does (`refines_board`): seen from there, a run is a run of the board, whose
acts are the writes, approvals and denials in the order in which the backend serves them. Everything
else, whatever users, moderators and administrators do and whatever fails, is invisible. So the
state of a post or comment is decided by the acts that concern it, and these have the shape of one
life (`life_of_item`).
-/

namespace ArtsExplorer

open Foundations

namespace System

variable {ι : Type}

/-- What a post or a comment says: all its fields but `approved`. -/
def content (d : Document) : Document := Function.update d "approved" none

/-- The key of a post or comment. -/
abbrev ItemKey := CollectionName × String

open Classical in
/-- The board of a system: the documents that are stored, and the ids that have been used. -/
noncomputable def boardOf (s : System ι) : Board ItemKey Document := fun x =>
  if x.1 = .users then .absent
  else
    match (s.store x.1).lookup x.2 with
    | some d =>
      if d "approved" = some (.bool true) then .approved (content d) else .pending (content d)
    | none => if s.Known x.1 x.2 then .removed else .absent

/-- What a call does on the board when it succeeds. -/
def requestAct (s : System ι) : Request → Option (BoardAct ItemKey Document)
  | .setData n id fields _ =>
    if n = .users then none else some (.submit (n, id) (content (.ofFields fields)))
  | .updateData n id _ =>
    if n = .users ∨ ((s.store n).lookup id).isNone then none else some (.approve (n, id))
  | .delete n id _ =>
    if n = .users ∨ ((s.store n).lookup id).isNone then none else some (.remove (n, id))
  | _ => none

/-- What a step does on the board. -/
def boardAct (s : System ι) : Event ι → Option (BoardAct ItemKey Document)
  | .serve i .success => (s.net[i]?).bind fun f => s.requestAct f.request
  | _ => none

section Phases

variable {s t : System ι} {n : CollectionName} {id : String} {d : Document}

theorem boardOf_users : s.boardOf (.users, id) = .absent := if_pos rfl

theorem boardOf_approved (hn : n ≠ .users) (hd : (s.store n).lookup id = some d)
    (ha : d "approved" = some (.bool true)) : s.boardOf (n, id) = .approved (content d) := by
  simp only [boardOf, if_neg hn, hd, if_pos ha]

theorem boardOf_pending (hn : n ≠ .users) (hd : (s.store n).lookup id = some d)
    (ha : d "approved" ≠ some (.bool true)) : s.boardOf (n, id) = .pending (content d) := by
  simp only [boardOf, if_neg hn, hd, if_neg ha]

theorem boardOf_removed (hn : n ≠ .users) (hd : (s.store n).lookup id = none)
    (hk : s.Known n id) : s.boardOf (n, id) = .removed := by
  simp only [boardOf, if_neg hn, hd, if_pos hk]

theorem boardOf_absent (hn : n ≠ .users) (hd : (s.store n).lookup id = none)
    (hk : ¬ s.Known n id) : s.boardOf (n, id) = .absent := by
  simp only [boardOf, if_neg hn, hd, if_neg hk]

/-- The board sees of a document whether it is stored, what it says and whether its id is used. -/
theorem boardOf_congr (hd : (t.store n).lookup id = (s.store n).lookup id)
    (hk : (s.store n).lookup id = none → (t.Known n id ↔ s.Known n id)) :
    t.boardOf (n, id) = s.boardOf (n, id) := by
  by_cases hn : n = .users
  · subst hn
    rw [boardOf_users, boardOf_users]
  cases hl : (s.store n).lookup id with
  | some d => simp only [boardOf, hd, hl]
  | none =>
    by_cases hkn : s.Known n id
    · rw [boardOf_removed hn hl hkn, boardOf_removed hn (hd.trans hl) ((hk hl).2 hkn)]
    · rw [boardOf_absent hn hl hkn, boardOf_absent hn (hd.trans hl) fun h => hkn ((hk hl).1 h)]

/-- An approval changes nothing that a document says. -/
theorem content_approve : content (d.update [("approved", .value (.bool true))]) = content d := by
  simp only [content, Document.update_singleton, Function.update_idem]

end Phases

variable [DecidableEq ι] {s t : System ι} {e : Event ι}

/-- An id that a step uses is that of a document it stores. -/
theorem known_of_step (hs : s.step e = some t) {n : CollectionName} {id : String}
    (hk : t.Known n id) : s.Known n id ∨ (t.store n).lookup id ≠ none := by
  obtain ⟨fields, f, hf, k, hreq, hrep⟩ := hk
  rcases answered_cases hs hf hrep with ⟨f₀, hf₀, hg, hr⟩ | ⟨i, a, u, -, hserved, hsame, -⟩
  · exact .inl ⟨fields, f₀, hf₀, k, hg.request.symm.trans hreq, hr⟩
  · rw [← hsame.store]
    exact .inr (kept_of_served hserved hreq)

/-- **The items that a step's act does not concern** stay where they are. -/
theorem boardOf_of_ne (hfresh : s.Fresh) (hs : s.step e = some t) {x : ItemKey}
    (hx : ∀ a, s.boardAct e = some a → x ≠ a.key) : t.boardOf x = s.boardOf x := by
  obtain ⟨n, id⟩ := x
  have hch := step_changes hfresh hs n id
  have hsame : (t.store n).lookup id = (s.store n).lookup id →
      t.boardOf (n, id) = s.boardOf (n, id) := fun hl =>
    boardOf_congr hl fun hnone => ⟨fun hk => (known_of_step hs hk).resolve_right
      fun hne => hne (hl.trans hnone), (step_extends hs).known⟩
  by_cases hn : n = .users
  · subst hn
    rw [boardOf_users, boardOf_users]
  -- a write that changed the item would have been its act
  have hact : ∀ f a, s.Serves t e f → s.requestAct f.request = some a → (n, id) ≠ a.key := by
    intro f a hf ha
    obtain ⟨i, rfl, hi⟩ := hf.event
    exact hx a (by rw [boardAct, hi, Option.bind_some, ha])
  generalize ho : (s.store n).lookup id = o at hch hsame
  generalize ho' : (t.store n).lookup id = o' at hch hsame
  cases hch with
  | unchanged => exact hsame rfl
  | setData f fields k hf hreq =>
    exact absurd rfl (hact f _ hf (by rw [hreq, requestAct, if_neg hn]))
  | updateData f ups d hf hreq =>
    exact absurd rfl (hact f _ hf (by rw [hreq, requestAct, ho, if_neg (by simp [hn])]))
  | delete f k o hf hreq =>
    cases o with
    | none => exact hsame rfl
    | some d => exact absurd rfl (hact f _ hf (by rw [hreq, requestAct, ho, if_neg (by simp [hn])]))
  | setMod mod d hn' => exact absurd hn' hn

omit [DecidableEq ι] in
/-- A call that is served has the acts. -/
theorem boardAct_cases {e : Event ι} {a : BoardAct ItemKey Document} (ha : s.boardAct e = some a) :
    ∃ i f, e = .serve i .success ∧ s.net[i]? = some f ∧ s.requestAct f.request = some a := by
  unfold boardAct at ha
  split at ha
  · obtain ⟨f, hi, hreq⟩ := Option.bind_eq_some_iff.1 ha
    exact ⟨_, f, rfl, hi, hreq⟩
  · cases ha

/-- **The item that a step's act concerns** moves as the act says. -/
theorem moves_of_boardAct (hinv : s.Inv False) (hfresh : s.Fresh) (hs : s.step e = some t)
    {a : BoardAct ItemKey Document} (ha : s.boardAct e = some a) :
    Board.Moves a (s.boardOf a.key) (t.boardOf a.key) := by
  have hext := step_extends hs
  obtain ⟨i, f, rfl, hi, hreq⟩ := boardAct_cases ha
  obtain ⟨g, u, r, hi', hrep, hserved, net, ht, -⟩ := serve_cases hs
  cases hi.symm.trans hi'
  have hf := List.mem_of_getElem? hi
  have hcalls := hinv.calls f hf
  have hstore : t.store = u.store := by rw [ht]
  generalize hq : f.request = req at hserved hcalls hreq
  cases req with
  | setData n id fields k =>
    simp only [requestAct, Option.ite_none_left_eq_some, Option.some.injEq] at hreq
    obtain ⟨hn, rfl⟩ := hreq
    obtain ⟨-, hnone, hcreated⟩ := hfresh.of_setData hf hrep hq
    have hpending : fields.lookup "approved" = some (.bool false) := by
      cases hcalls with
      | userSet => exact absurd rfl hn
      | _ => rfl
    have hl : (t.store n).lookup id = some (.ofFields fields) := by
      rw [hstore]
      cases hserved
      simp [setStore]
    rw [BoardAct.key, boardOf_absent hn hnone fun hc => hc.elim hcreated,
      boardOf_pending hn hl (by simp [Document.ofFields, hpending])]
    exact .submit _ _
  | updateData n id ups =>
    simp only [requestAct, Option.ite_none_left_eq_some, Option.some.injEq] at hreq
    obtain ⟨hn, rfl⟩ := hreq
    rw [not_or] at hn
    rcases hcalls.updateData_cases with ⟨hu, -⟩ | ⟨hu, -⟩ | ⟨rfl, -⟩
    · exact absurd hu hn.1
    · exact absurd hu hn.1
    cases hserved with
    | missing _ _ _ hd => simp [hd] at hn
    | @updateData d _ _ _ hd =>
      have hl : (t.store n).lookup id =
          some (d.update [("approved", .value (.bool true))]) := by
        rw [hstore]
        simp [setStore, hd]
      rw [BoardAct.key, boardOf_approved hn.1 hl rfl, content_approve]
      by_cases ha : d "approved" = some (.bool true)
      · rw [boardOf_approved hn.1 hd ha]
        exact .again _ _
      · rw [boardOf_pending hn.1 hd ha]
        exact .approve _ _
  | delete n id k =>
    simp only [requestAct, Option.ite_none_left_eq_some, Option.some.injEq] at hreq
    obtain ⟨hn, rfl⟩ := hreq
    rw [not_or] at hn
    obtain ⟨d, hd⟩ := Option.ne_none_iff_exists'.1 (by simpa using hn.2)
    have hl : (t.store n).lookup id = none := by
      rw [hstore]
      cases hserved
      simp [setStore]
    have hrec : s.Recorded n id d :=
      (documentOK_iff_recorded hn.1).1 (hinv.stored n id d hd)
    have hknown : s.Known n id := hrec.created.imp fun _ h => h.1
    rw [BoardAct.key, boardOf_removed hn.1 hl (hext.known hknown)]
    by_cases ha : d "approved" = some (.bool true)
    · rw [boardOf_approved hn.1 hd ha]
      exact .takeDown _ _
    · rw [boardOf_pending hn.1 hd ha]
      exact .reject _ _
  | _ => cases hreq

omit [DecidableEq ι] in
theorem boardOf_initial (h : s.Initial) (x : ItemKey) : s.boardOf x = .absent := by
  obtain ⟨n, id⟩ := x
  have hk : ¬ s.Known n id := by
    rintro ⟨fields, f, hf, -⟩
    simp [h.net] at hf
  cases n with
  | users => exact boardOf_users
  | posts => exact boardOf_absent (by decide) (by simp [h.posts]) hk
  | comments => exact boardOf_absent (by decide) (by simp [h.comments]) hk

/-- A step with an act is a step of the board. -/
theorem board_step (h : (machine ι).Reachable s) (hs : s.step e = some t)
    {a : BoardAct ItemKey Document} (ha : s.boardAct e = some a) :
    (board ItemKey Document).step s.boardOf a = some t.boardOf := by
  have hinv : s.Inv False := reachable_inv (h.mono fun _ _ _ => False.elim)
  have hfresh := reachable_fresh h
  refine Board.step_of_moves (moves_of_boardAct hinv hfresh hs ha) fun x hx => ?_
  refine boardOf_of_ne hfresh hs fun a' ha' => ?_
  cases ha.symm.trans ha'
  exact hx

/-- A step without one is nothing to the board. -/
theorem board_stays (h : (machine ι).Reachable s) (hs : s.step e = some t)
    (ha : s.boardAct e = none) : t.boardOf = s.boardOf := by
  funext x
  refine boardOf_of_ne (reachable_fresh h) hs fun a ha' => ?_
  rw [ha] at ha'
  cases ha'

/-- **The app refines the moderated board.** -/
theorem refines_board (ι : Type) [DecidableEq ι] :
    (machine ι).Refines (board ItemKey Document) boardOf boardAct where
  initial _ h := boardOf_initial h
  visible _ _ _ _ h hs ha := board_step h hs ha
  hidden _ _ _ h hs ha := board_stays h hs ha

/-- The run of the board that a run of the system is. -/
theorem board_steps (hs : (machine ι).Reachable s) {es : List (Event ι)}
    (hrun : (machine ι).Steps (fun _ _ => True) s es t) :
    (board ItemKey Document).Steps (fun _ _ => True) s.boardOf
      ((machine ι).log (fun s e => (s.boardAct e).toList) s es) t.boardOf :=
  Machine.Refines.steps ⟨fun _ h => boardOf_initial h, fun _ _ _ _ h hs ha => board_step h hs ha,
    fun _ _ _ h hs ha => board_stays h hs ha⟩ hs hrun

/-- From a reachable state on, a post or comment only advances: it says what it said, an approval is
not withdrawn, and it does not come back once it has been denied. -/
theorem board_advances (hs : (machine ι).Reachable s) {es : List (Event ι)}
    (hrun : (machine ι).Steps (fun _ _ => True) s es t) : s.boardOf ≤ t.boardOf :=
  Board.le_of_steps (board_steps hs hrun)

/-- **The life of a post or comment.** Along a run, the served acts that concern it are one write,
approvals and one denial, as far as it has come; and it is stored and approved accordingly. -/
theorem life_of_item {s₀ : System ι} (h₀ : s₀.Initial) {es : List (Event ι)}
    (hrun : (machine ι).Steps (fun _ _ => True) s₀ es s) (x : ItemKey) :
    Board.History x (s.boardOf x)
      (((machine ι).log (fun s e => (s.boardAct e).toList) s₀ es).filter fun a => a.key = x) :=
  Board.history (boardOf_initial h₀) (board_steps (.init h₀) hrun) x

/-- The run in which a moderator approves Ann's post and its approval is served. -/
theorem life_of_item_approved : ∃ s : System ℕ,
    ((s.store .posts).lookup "post").any (fun d => d "approved" = some (.bool true)) = true ∧
      Board.History (.posts, "post") (s.boardOf (.posts, "post"))
        (((machine ℕ).log (fun s e => (s.boardAct e).toList) (start annMoAndMax)
          (pendingPostEvents ++ [.act 1 5 (.approve 0) {}, .serve 8 .success])).filter
            fun a => a.key = (.posts, "post")) := by
  obtain ⟨s, hs, hp⟩ := (machine ℕ).exists_of_run (start annMoAndMax)
    (pendingPostEvents ++ [.act 1 5 (.approve 0) {}, .serve 8 .success])
    (fun s => ((s.store .posts).lookup "post").any fun d => d "approved" = some (.bool true))
    (by decide +kernel)
  exact ⟨s, hp, life_of_item (initial_start _) hs _⟩

end System

end ArtsExplorer
