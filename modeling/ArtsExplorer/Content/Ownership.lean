import ArtsExplorer.System.Start

/-!
# Who writes what

The writes of the app, over whole runs. A user document is created by the session of its user and
afterwards changed in four fields only. A post or a comment is created once, under a name that was
never used, for the user who was signed in when the button was pressed, and then changes in
`approved` only.

The profile's edit writes to `opID`, a variable that the rows of its list overwrite. It stays the
user for whom the profile was loaded, since the list holds that user's posts only. Whether this is
the signed-in user depends on the session (`Late`): an answer that comes late lets the session of
one user edit the document of another (`foreign_edit`).
-/

namespace ArtsExplorer

open Foundations

/-- The fields of a user document that the app changes. -/
def profileFields : List String := ["name", "bio", "avatarID", "savedPosts"]

/-- The field with the author of a document. -/
def CollectionName.authorField : CollectionName → String
  | .users => "id"
  | .posts => "opID"
  | .comments => "commenterID"

namespace System

variable {ι : Type} {s t : System ι} {sync : Prop}

/-! ## The law for the calls -/

/-- Document `id` is the work of a press on the screen that makes call `f`, with `u` signed in. -/
def PressedBy (s : System ι) (u : String) (f : Flight ι) (n : CollectionName) (id : String) :
    Prop :=
  ∃ g ∈ s.net, g.client = f.client ∧ g.node = f.node ∧ g.user = some u ∧
    ∃ k : Callback, g.request = .getDocument .users u k ∧ k.claims = [(n, id)]

/-- What the writes in flight are, and the variable that the profile writes to. -/
structure WritesOwned (s : System ι) : Prop where
  create_user : ∀ f ∈ s.net, ∀ id fields k, f.request = .setData .users id fields k →
    f.user = some id ∧ ∃ nameText, fields = userDocument id nameText
  update_user : ∀ f ∈ s.net, ∀ id ups, f.request = .updateData .users id ups →
    (∀ key ∈ ups.map Prod.fst, key ∈ profileFields) ∧
      (f.user = some id ∨ ∃ nd, s.At f.client f.node nd ∧ nd.user = some id)
  keep_user : ∀ f ∈ s.net, ∀ id k, f.request ≠ .delete .users id k
  create : ∀ f ∈ s.net, ∀ n id fields k, n ≠ .users → f.request = .setData n id fields k →
    fields.lookup "approved" = some (.bool false) ∧
      ∃ u, fields.lookup n.authorField = some (.string u) ∧ s.PressedBy u f n id
  opID : ∀ c k n p, s.At c k n → n.screen = .userProfile p → n.user = some p.listing.opID

theorem Inv.writesOwned (h : s.Inv sync) : s.WritesOwned where
  create_user f hf id fields k hreq := by
    have hcalls := h.calls f hf
    rw [hreq] at hcalls
    cases hcalls with
    | userSet uid nameText hu htold => exact ⟨hu, nameText, rfl⟩
  update_user f hf id ups hreq := by
    have hcalls := h.calls f hf
    rw [hreq] at hcalls
    rcases hcalls.updateData_cases with ⟨-, hups, nd, hn, hu, -⟩ | ⟨-, hu, p, v, rfl, -⟩ |
      ⟨-, hm, -⟩
    · refine ⟨fun key hkey => ?_, .inr ⟨nd, hn, hu⟩⟩
      rcases hups key hkey with rfl | rfl | rfl <;> simp [profileFields]
    · refine ⟨fun key hkey => ?_, .inl hu⟩
      simp only [List.map_cons, List.map_nil, List.mem_singleton] at hkey
      simp [hkey, profileFields]
    · exact absurd rfl hm.ne_users
  keep_user f hf id k hreq := by
    have hcalls := h.calls f hf
    rw [hreq] at hcalls
    obtain ⟨-, -, hm, -⟩ := hcalls.delete_cases
    exact hm.ne_users rfl
  create f hf n id fields k hn hreq := by
    have hcalls := h.calls f hf
    rw [hreq] at hcalls
    cases hcalls with
    | uploadSet postUUID opID mediaID titleText descriptionText opName chosenCategories date
      hpress =>
      obtain ⟨g, hg, hc, hk, hu, hgreq⟩ := hpress
      exact ⟨rfl, opID, rfl, g, hg, hc, hk, hu, _, hgreq, rfl⟩
    | commentSet commentID opID message opName postID date hpost hpress =>
      obtain ⟨g, hg, hc, hk, hu, hgreq⟩ := hpress
      exact ⟨rfl, opID, rfl, g, hg, hc, hk, hu, _, hgreq, rfl⟩
    | userSet => exact absurd rfl hn
  opID c k n p hn hp := by
    have hok := h.screens c k n hn
    obtain ⟨container, opener, user, screen⟩ := n
    cases hp
    exact hok.1

/-! ## The law for the documents -/

/-- A document of `t` that `s` does not have is new, and pending if it can be. -/
def CreatesNew (s t : System ι) : Prop :=
  ∀ n id d, (s.store n).lookup id = none → (t.store n).lookup id = some d →
    s.Named n id ∧ ¬ s.Known n id ∧ (n ≠ .users → d "approved" = some (.bool false))

/-- Posts and comments stored in both are the same, `approved` aside. -/
def KeepsContents (s t : System ι) : Prop :=
  ∀ n id d d', n ≠ .users → (s.store n).lookup id = some d → (t.store n).lookup id = some d' →
    ∀ key, key ≠ "approved" → d' key = d key

/-- User documents are still there, with the same `key`. -/
def KeepsField (key : String) (s t : System ι) : Prop :=
  ∀ u d, (s.store .users).lookup u = some d → ∃ d', (t.store .users).lookup u = some d' ∧
    d' key = d key

theorem KeepsField.refl (key : String) (s : System ι) : KeepsField key s s :=
  fun _ d hd => ⟨d, hd, rfl⟩

theorem KeepsField.trans {key : String} {s t u : System ι} (h₁ : KeepsField key s t)
    (h₂ : KeepsField key t u) : KeepsField key s u := by
  intro x d hd
  obtain ⟨d', hd', hk'⟩ := h₁ x d hd
  obtain ⟨d'', hd'', hk''⟩ := h₂ x d' hd'
  exact ⟨d'', hd'', hk''.trans hk'⟩

section Steps

variable [DecidableEq ι]

theorem createsNew_of_step (h : s.Inv sync) (hfresh : s.Fresh) {e : Event ι}
    (hs : s.step e = some t) :
    s.CreatesNew t := by
  intro n id d hnone hd
  have hch := step_changes hfresh hs n id
  rw [hnone, hd] at hch
  cases hch with
  | setData f fields k hf hreq =>
    obtain ⟨hnamed, -, hnew⟩ := hfresh.of_setData hf.mem hf.unserved hreq
    exact ⟨hnamed, fun ⟨fields', hc⟩ => hnew fields' hc, fun hn =>
      (h.writesOwned.create f hf.mem n id fields k hn hreq).1⟩

theorem keepsField_of_step (h : s.Inv sync) (hfresh : s.Fresh) {key : String}
    (hkey : key ∉ profileFields) {e : Event ι} (hmod : key = "mod" → ∀ uid mod, e ≠ .setMod uid mod)
    (hs : s.step e = some t) : KeepsField key s t := by
  intro u d hd
  have hch := step_changes hfresh hs .users u
  rw [hd] at hch
  generalize (t.store .users).lookup u = o at hch
  cases hch with
  | unchanged => exact ⟨d, rfl, rfl⟩
  | updateData f ups d hf hreq =>
    have hups := (h.writesOwned.update_user f hf.mem u ups hreq).1
    exact ⟨_, rfl, Document.update_of_notMem fun hk => hkey (hups key hk)⟩
  | delete f k o hf hreq => exact absurd hreq (h.writesOwned.keep_user f hf.mem u k)
  | setMod mod d hn he =>
    refine ⟨_, rfl, Document.update_of_notMem fun hk => ?_⟩
    exact hmod (List.mem_singleton.1 hk) u mod he

theorem keepsField_of_steps {C : System ι → Event ι → Prop} {key : String}
    (hkey : key ∉ profileFields)
    (hmod : ∀ s e, C s e → key = "mod" → ∀ uid mod, e ≠ .setMod uid mod) {es : List (Event ι)}
    (hs : (machine ι).Reachable s) (hrun : (machine ι).Steps C s es t) : KeepsField key s t := by
  refine hrun.rel hs (KeepsField.refl key) (fun _ _ _ => KeepsField.trans)
    fun s e s' hvia hC hstep => ?_
  exact keepsField_of_step (reachable_inv (hvia.mono fun _ _ _ => False.elim))
    (reachable_fresh hvia) hkey
    (hmod s e hC) hstep

omit [DecidableEq ι] in
/-- Two records of a document have the same contents. -/
theorem keepsContents_of_extends (h : s.Inv sync) (h' : t.Inv sync) (hfresh : t.Fresh)
    (he : s.Extends t) : s.KeepsContents t := by
  intro n id d d' hn hd hd' key hkey
  obtain ⟨fields, hc, hfields⟩ := ((documentOK_iff_recorded hn).1 (h.stored n id d hd)).created
  obtain ⟨fields', hc', hfields'⟩ :=
    ((documentOK_iff_recorded hn).1 (h'.stored n id d' hd')).created
  rw [hfields key hkey, hfields' key hkey, hfresh.once n id fields' fields hc' (he.created hc)]

/-! ## The law -/

/-- The session writes to its own user's document only, and the profile in front is that of the
signed-in user. -/
structure OwnSession (s : System ι) : Prop where
  update_user : ∀ f ∈ s.net, ∀ id ups, f.request = .updateData .users id ups → f.user = some id
  opID : ∀ c k n p, s.At c k n → n.screen = .userProfile p →
    n.container = (s.clients c).front → (s.clients c).top = none →
      (s.clients c).currentUser = some p.listing.opID

theorem ownSession_of_via (h : (machine ι).Via (fun s e => ∀ c, ¬ s.Late c e) s) :
    s.OwnSession := by
  have hinv : s.Inv True := reachable_inv (h.mono fun _ _ hl _ => hl)
  have hnav := reachable_nav (fun _ => True) (fun _ => False)
    (h.mono fun _ _ hl c => ⟨fun _ => hl c, False.elim⟩)
  refine ⟨fun f hf id ups hreq => ?_, fun c k n p hn hp hc ht => ?_⟩
  · have hcalls := hinv.calls f hf
    rw [hreq] at hcalls
    rcases hcalls.updateData_cases with ⟨-, -, nd, -, -, hu⟩ | ⟨-, hu, -⟩ | ⟨-, hm, -⟩
    · exact hu trivial
    · exact hu
    · exact absurd rfl hm.ne_users
  · rw [← (hnav c).user trivial k n hn hc ht]
    exact hinv.writesOwned.opID c k n p hn hp

/-- **Who writes what.** In every reachable state the writes in flight are owned; from it on,
documents are created under new names, and no step and no run changes more of them than it may. In
runs where no log-in or sign-up is answered late, a session writes to its own user's document. -/
theorem writes_owned (h : (machine ι).Reachable s) :
    s.WritesOwned ∧ (∀ e t, s.step e = some t → s.CreatesNew t) ∧
      (∀ es t, (machine ι).Steps (fun _ _ => True) s es t → s.KeepsContents t ∧
        KeepsField "id" s t) ∧
      (∀ es t, (machine ι).Steps (fun _ e => ∀ uid mod, e ≠ .setMod uid mod) s es t →
        KeepsField "mod" s t) ∧
      ((machine ι).Via (fun s e => ∀ c, ¬ s.Late c e) s → s.OwnSession) := by
  have hinv : s.Inv False := reachable_inv (h.mono fun _ _ _ => False.elim)
  refine ⟨hinv.writesOwned, fun e t hs => createsNew_of_step hinv (reachable_fresh h) hs,
    fun es t hrun => ⟨?_, ?_⟩, fun es t hrun => ?_, ownSession_of_via⟩
  · have ht := hrun.reachable h
    have he : s.Extends t := hrun.rel h Extends.refl (fun _ _ _ => Extends.trans)
      fun _ _ _ _ _ => step_extends
    exact keepsContents_of_extends hinv (reachable_inv (ht.mono fun _ _ _ => False.elim))
      (reachable_fresh ht) he
  · exact keepsField_of_steps (by decide) (fun _ _ _ hk => absurd hk (by decide)) h hrun
  · exact keepsField_of_steps (by decide) (fun _ _ hC _ => hC) h hrun

end Steps

/-- The edit of the profile that is screen `k`: its user's document is read by call `i`. -/
def editEvents {ι : Type} (c : ι) (k i : ℕ) (bio : String) : List (Event ι) :=
  answerEvents i ++
  [.act c k .editTapped { uuid := "first" }, .act c k (.type .selfBio bio) {},
   .act c k .editTapped { uuid := "second" }]

/-- Ann logs in and edits her profile, and the change is applied. -/
def annsEdit : List (Event Unit) :=
  logInEvents () 0 "ann@cis.edu.hk" "pass" ++ [.act () 2 .profileTab {}] ++
    editEvents () 4 3 "Hi" ++
  [.serve 4 .success]

/-- A session with `user` signed in has called for a change of Ann's document. -/
def EditsAnn (s : System Unit) (user : String) : Prop :=
  ∃ f ∈ s.net, f.user = some user ∧
    f.request = .updateData .users "ann" [("bio", .value (.string "Hi"))]

instance (s : System Unit) (user : String) : Decidable (s.EditsAnn user) := by
  unfold EditsAnn
  infer_instance

theorem writes_owned_edit :
    ∃ s : System Unit, s.EditsAnn "ann" ∧ s.WritesOwned ∧ s.OwnSession := by
  obtain ⟨s, hs, hp⟩ := (machine Unit).exists_of_runWhile _ not_late_of_isLate (start annAndBob)
    annsEdit (fun s => decide (s.EditsAnn "ann")) (by decide +kernel)
  have hvia := hs.via (reachable_start annAndBob)
  obtain ⟨howned, -, -, -, hsession⟩ := writes_owned hvia.reachable
  exact ⟨s, of_decide_eq_true hp, howned, hsession hvia⟩

/-- Bob's log-in is answered when the profile has been loaded for Ann, who then edits it. -/
def lateEdit : List (Event Unit) :=
  overlapEvents ++ [.act () 2 .profileTab {}] ++ answerEvents 1 ++ editEvents () 4 4 "Hi"

/-- Screen 4 is the profile of Ann, with Bob signed in. -/
def ProfileOfAnn (s : System Unit) : Prop :=
  ∃ n ∈ (s.clients ()).nodes[4]?, n.screen.kind = .userProfile ∧ n.user = some "ann" ∧
    (s.clients ()).currentUser = some "bob"

instance (s : System Unit) : Decidable s.ProfileOfAnn := by
  unfold ProfileOfAnn
  infer_instance

/-- **The session of one user can edit the document of another**, from a profile whose `opID` is not
the signed-in user. -/
theorem foreign_edit :
    ∃ s : System Unit, (machine Unit).Reachable s ∧
      (∃ f ∈ s.net, ∃ id ups, f.request = .updateData .users id ups ∧ f.user ≠ some id) ∧
      ∃ n p, s.At () 4 n ∧ n.screen = .userProfile p ∧
        (s.clients ()).currentUser ≠ some p.listing.opID := by
  obtain ⟨s, hs, hp⟩ := (machine Unit).exists_of_run (start annAndBob) lateEdit
    (fun s => decide (s.EditsAnn "bob") && decide s.ProfileOfAnn) (by decide +kernel)
  rw [Bool.and_eq_true, decide_eq_true_eq, decide_eq_true_eq] at hp
  obtain ⟨⟨f, hf, hu, hreq⟩, n, hn, hk, huser, hcur⟩ := hp
  have hreach : (machine Unit).Reachable s := hs.reachable (reachable_start _)
  have hinv : s.Inv False := reachable_inv (hreach.mono fun _ _ _ => False.elim)
  have hopID := fun p => hinv.writesOwned.opID () 4 n p hn
  obtain ⟨container, opener, user, screen⟩ := n
  cases screen <;> cases hk
  next p =>
  refine ⟨s, hreach, ⟨f, hf, _, _, hreq, by simp [hu]⟩, _, p, hn, rfl, ?_⟩
  have hown := huser.symm.trans (hopID p rfl)
  rw [hcur, ← hown]
  simp

end System

end ArtsExplorer
