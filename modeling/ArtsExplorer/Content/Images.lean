import ArtsExplorer.Content.Media

/-!
# Pictures are written once

A picture goes to a path of Storage that is made of a `UUID()` drawn for it, `posts/` for the
picture of a post and `avatars/` for that of a profile. So no two uploads ever have the same path,
and an object that is there stays as it is (`objects_written_once`), also when a profile gets
another picture.
-/

namespace ArtsExplorer

open Foundations

/-- The path of Storage that an effect uploads to. -/
def Effect.uploads : Effect → List String
  | .request r => r.upload.toList
  | _ => []

/-- The two paths that are made of `id`. -/
def IsPathOf (id path : String) : Prop := path = "posts/" ++ id ∨ path = "avatars/" ++ id

theorem posts_ne_avatars (id id' : String) : "posts/" ++ id ≠ "avatars/" ++ id' := by
  intro h
  have hlist := congrArg (fun s : String => s.toList.head?) h
  simp at hlist

/-- A path is made of one id. -/
theorem IsPathOf.unique {id id' path : String} (h : IsPathOf id path) (h' : IsPathOf id' path) :
    id = id' := by
  rcases h with rfl | rfl <;> rcases h' with h' | h'
  · simpa using h'
  · exact absurd h' (posts_ne_avatars id id')
  · exact absurd h'.symm (posts_ne_avatars id' id)
  · simpa using h'

namespace Screen

variable {env : Env} {scr scr' : Screen} {es : List Effect}

theorem uploads_eq_nil (h : ∀ r, .request r ∈ es → r.upload = none) :
    es.flatMap Effect.uploads = [] := by
  refine List.flatMap_eq_nil_iff.2 fun e he => ?_
  cases e with
  | request r => rw [Effect.uploads, h r he, Option.toList_none]
  | _ => rfl

/-- The commit of a profile uploads one picture, if any. -/
theorem editTapped_uploads {s s' : UserProfileViewController}
    (h : s.editTapped env = .ok (s', es)) {path : String} {image : UIImage} {k : Callback}
    (hr : .request (.putData path image k) ∈ es) :
    ∃ path, IsPathOf env.uuid path ∧ es.flatMap Effect.uploads = [path] := by
  unfold UserProfileViewController.editTapped at h
  split_ifs at h
  · unfold UserProfileViewController.commit at h
    simp only at h
    split at h
    · cases h
    · split_ifs at h <;> cases h
      · exact ⟨_, .inr rfl, rfl⟩
      · cases hr
      · cases hr
      · cases List.mem_singleton.1 hr
  · unfold UserProfileViewController.startEditing at h
    split at h <;> cases h
    cases hr

/-- The upload of a post uploads one picture, if any. -/
theorem uploadPressed_uploads {s s' : UploadViewController}
    (h : s.uploadPressed env = .ok (s', es)) {path : String} {image : UIImage} {k : Callback}
    (hr : .request (.putData path image k) ∈ es) :
    ∃ path, IsPathOf env.uuid path ∧ es.flatMap Effect.uploads = [path] := by
  unfold UploadViewController.uploadPressed at h
  split at h
  · cases h
    cases List.mem_singleton.1 hr
  · simp only [bind_eq_ok, pure_eq_ok, Prod.mk.injEq] at h
    obtain ⟨u, -, -, rfl⟩ := h
    refine ⟨"posts/" ++ env.uuid, .inl rfl, ?_⟩
    simp only [List.mem_append, List.mem_singleton, reduceCtorEq, or_false,
      Effect.request.injEq] at hr
    split_ifs at hr with hmedia
    · unfold UploadViewController.uploadImage at hr ⊢
      split at hr
      · split_ifs at hr with hj
        · simp only [hj, hmedia]
          rfl
        · cases hr
      · cases hr
    · cases hr

/-- **An action uploads** one picture, to a path made of the id it has drawn, or none. -/
theorem act_uploads {a : Action} (h : scr.act env a = some (.ok (scr', es))) :
    es.flatMap Effect.uploads = [] ∨
      a.drawsUUID = true ∧ ∃ path, IsPathOf env.uuid path ∧ es.flatMap Effect.uploads = [path] := by
  have hem := (act_spec h).2.2
  refine (em (∀ r, .request r ∈ es → r.upload = none)).imp uploads_eq_nil fun hne => ?_
  push Not at hne
  obtain ⟨r, hr, hup⟩ := hne
  have hemr := hem _ hr
  cases hemr with
  | table hl he =>
    generalize a.byUser = b at he
    cases he <;> exact absurd rfl hup
  | @avatarPut s =>
    cases a
    case editTapped =>
      simp only [act, Option.some.injEq, lift_eq_ok, Prod.mk.injEq] at h
      obtain ⟨x, hx, -, rfl⟩ := h
      exact ⟨rfl, editTapped_uploads hx hr⟩
    case table a =>
      simp only [act] at h
      obtain ⟨l, l', -, hact, -⟩ := tableAct_ok h
      have he := (PostListing.act_spec hact).2.2 _ hr
      generalize a.byUser = b at he
      cases he
    case type field text =>
      simp only [act, Option.map_eq_some_iff, Except.ok.injEq, Prod.mk.injEq] at h
      obtain ⟨_, -, -, rfl⟩ := h
      cases hr
    case refresh =>
      cases h
      cases List.mem_singleton.1 hr
    case saveAndCancelTapped =>
      simp only [act, Option.some.injEq, lift_eq_ok, Except.ok.injEq, exists_eq_left',
        Prod.mk.injEq] at h
      unfold UserProfileViewController.saveAndCancelTapped at h
      split_ifs at h <;> obtain ⟨-, rfl⟩ := h <;> simp at hr
    case didFinishPicking n =>
      simp only [act] at h
      split_ifs at h
      cases h
      cases hr
    case pictureLoaded found =>
      cases h
      cases hr
    all_goals cases h
  | @uploadPut s =>
    cases a
    case uploadPressed =>
      simp only [act, Option.some.injEq, lift_eq_ok, Prod.mk.injEq] at h
      obtain ⟨x, hx, -, rfl⟩ := h
      exact ⟨rfl, uploadPressed_uploads hx hr⟩
    case type field text =>
      simp only [act, Option.map_eq_some_iff, Except.ok.injEq, Prod.mk.injEq] at h
      obtain ⟨_, -, -, rfl⟩ := h
      cases hr
    all_goals
      cases h
      try cases hr
  | _ => exact absurd rfl hup

/-- No closure uploads a picture. -/
theorem receive_uploads {k : Callback} {r : Reply}
    (h : scr.receive env k r = some (.ok (scr', es))) : es.flatMap Effect.uploads = [] := by
  refine uploads_eq_nil fun req hreq => ?_
  cases (receive_answers h).2 _ hreq <;> rfl

end Screen

/-- A list of calls one of which changes, in something else than what `f` sees. -/
theorem filterMap_set {α β : Type} {f : α → Option β} {l : List α} {i : ℕ} {a b : α}
    (ha : l[i]? = some a) (hb : f b = f a) : (l.set i b).filterMap f = l.filterMap f := by
  induction l generalizing i with
  | nil => rfl
  | cons x l ih =>
    cases i with
    | zero =>
      cases ha
      simp only [List.set_cons_zero, List.filterMap_cons, hb]
    | succ i => simp only [List.set_cons_succ, List.filterMap_cons, ih ha]

namespace System

variable {ι : Type}

/-- The paths of all uploads, in the order of the calls. -/
def uploads (s : System ι) : List String := s.net.filterMap fun f => f.request.upload

/-- Every upload has a path of its own, which is made of a drawn id, and what is stored was
uploaded. -/
structure OnePerPath (s : System ι) : Prop where
  nodup : s.uploads.Nodup
  drawn : ∀ path ∈ s.uploads, ∃ id ∈ s.uuids, IsPathOf id path
  stored : ∀ path image, s.objects path = some image →
    ∃ f ∈ s.net, f.request.upload = some path ∧ f.reply = some (.completion none)

section Uploads

variable {s t : System ι} {c : ι} {k : ℕ} {env : Env}

theorem uploads_sendAll (es : List Effect) :
    (s.sendAll c k es).uploads = s.uploads ++ es.flatMap Effect.uploads := by
  induction es generalizing s with
  | nil => simp [sendAll]
  | cons e es ih =>
    cases e with
    | request r =>
      rw [sendAll, ih, List.flatMap_cons, ← List.append_assoc]
      congr 1
      rw [uploads, send, List.filterMap_append, Effect.uploads]
      cases r <;> rfl
    | _ => exact ih

variable [DecidableEq ι]

theorem uploads_enterHome (entrance : Entrance) : (s.enterHome c entrance).uploads = s.uploads := by
  rw [enterHome, uploads_sendAll]
  exact List.append_nil _

theorem uploads_openScreen (d : Destination) : (s.openScreen c k env d).uploads = s.uploads := by
  unfold openScreen
  split
  · rfl
  · next scr es hload =>
    rw [uploads_sendAll]
    obtain ⟨rs, hloaded, rfl⟩ := Screen.load_loaded hload
    have hnone : (rs.map Effect.request).flatMap Effect.uploads = [] := by
      cases hloaded <;> rfl
    rw [hnone, List.append_nil]
    rfl

/-- **What an effect adds to the uploads.** -/
theorem uploads_performOne (e : Effect) :
    (s.performOne c k env e).uploads = s.uploads ++ e.uploads := by
  cases e <;> simp only [performOne]
  case request r => exact (uploads_sendAll [.request r]).trans (by simp)
  case segue d => exact (uploads_openScreen d).trans (List.append_nil _).symm
  case goToHome =>
    split_ifs
    · exact (uploads_enterHome _).trans (List.append_nil _).symm
    · exact (List.append_nil _).symm
  case presentInitial =>
    refine Eq.trans ?_ (List.append_nil _).symm
    unfold enterInitial
    split_ifs
    · rfl
    · exact uploads_enterHome _
  all_goals exact (List.append_nil _).symm

theorem uploads_handle (res : Except Fault (After Screen)) :
    (s.handle c k env res).uploads =
      s.uploads ++ (res.toOption.elim [] fun x => x.2.flatMap Effect.uploads) := by
  cases res with
  | error x => exact (List.append_nil _).symm
  | ok x =>
    obtain ⟨scr, es⟩ := x
    simp only [handle, Except.toOption, Option.elim_some]
    generalize hu : s.modify c (fun cl => cl.setScreen k scr) = u
    have huploads : u.uploads = s.uploads := hu ▸ rfl
    rw [← huploads]
    clear hu huploads
    induction es generalizing u with
    | nil => simp [perform]
    | cons e es ih => rw [perform, ih, uploads_performOne, List.flatMap_cons, List.append_assoc]

omit [DecidableEq ι] in
/-- What serving a call leaves of the uploads: all of them. -/
theorem uploads_serve {i : ℕ} {a : Answer} (hs : s.serve i a = some t) : t.uploads = s.uploads := by
  obtain ⟨f, u, r, hi, -, hserved, net, rfl, hnet⟩ := serve_cases hs
  rw [hserved.frame.2.1] at hnet
  rcases hnet with rfl | ⟨rfl, n, q, k, hreq⟩
  · exact filterMap_set hi rfl
  · simp [uploads, hreq, Request.upload]

/-- **What a step adds to the uploads**: one with a path made of the id that the step draws, or
none. -/
theorem uploads_of_step {e : Event ι} (hs : s.step e = some t) :
    t.uploads = s.uploads ∨ ∃ id path, IsPathOf id path ∧ id ∉ s.uuids ∧ id ∈ t.uuids ∧
      t.uploads = s.uploads ++ [path] := by
  cases e with
  | launch c =>
    cases hs
    left
    exact (@uploads_performOne ι _ c 0 {} _ .presentInitial).trans (List.append_nil _)
  | act c k a env =>
    obtain ⟨n, res, hn, -, -, hfresh, hact, rfl⟩ := act_cases hs
    have hdraw : (s.draw a env).uploads = s.uploads := by
      unfold draw
      split_ifs <;> rfl
    rw [uploads_handle, hdraw]
    cases res with
    | error x => exact .inl (List.append_nil _)
    | ok x =>
      rcases Screen.act_uploads hact with hnil | ⟨hdraws, path, hpath, hone⟩
      · left
        rw [Except.toOption, Option.elim_some, hnil, List.append_nil]
      · right
        refine ⟨env.uuid, path, hpath, hfresh hdraws, ?_, by
          rw [Except.toOption, Option.elim_some, hone]⟩
        have hn' : (s.draw a env).At c k n := by rwa [At, clients_draw]
        refine (extends_handle hn' fun x hx => ?_).uuids _ (by simp [draw, hdraws])
        cases hx
        exact (Screen.act_spec hact).1
  | serve i a => exact .inl (uploads_serve hs)
  | deliver i date =>
    left
    obtain ⟨f, r, hi, -, -, hcase⟩ := deliver_cases hs
    have hmark : (s.mark i f).uploads = s.uploads := filterMap_set hi rfl
    rcases hcase with ⟨-, rfl⟩ | ⟨-, u, rfl, hs'⟩
    · exact hmark
    have hsign : ((s.mark i f).signIn f.client r).uploads = s.uploads := by
      unfold signIn
      split <;> exact hmark
    rcases hs' with ⟨rfl, -⟩ | ⟨k, n, res, -, -, hres, rfl⟩
    · exact hsign
    · rw [uploads_handle, hsign]
      cases res with
      | error x => exact List.append_nil _
      | ok x =>
        rw [Except.toOption, Option.elim_some, Screen.receive_uploads hres, List.append_nil]
  | setMod uid mod =>
    cases hs
    exact .inl rfl

/-! ## Every upload has its own path -/

omit [DecidableEq ι] in
/-- Two uploads to one path are one call. -/
theorem OnePerPath.eq (h : s.OnePerPath) {i j : ℕ} {f g : Flight ι} {path : String}
    (hf : s.net[i]? = some f) (hg : s.net[j]? = some g) (hfp : f.request.upload = some path)
    (hgp : g.request.upload = some path) : i = j := by
  have hne := List.pairwise_iff_getElem.1 (List.pairwise_filterMap.1 h.nodup)
  obtain ⟨hi, rfl⟩ := List.getElem?_eq_some_iff.1 hf
  obtain ⟨hj, rfl⟩ := List.getElem?_eq_some_iff.1 hg
  rcases lt_trichotomy i j with hlt | heq | hgt
  · exact absurd rfl (hne i j hi hj hlt path hfp path hgp)
  · exact heq
  · exact absurd rfl (hne j i hj hi hgt path hgp path hfp)

omit [DecidableEq ι] in
/-- **Serving a call** writes to a path that had no object. -/
theorem OnePerPath.serve (h : s.OnePerPath) {i : ℕ} {a : Answer} (hs : s.serve i a = some t)
    {path : String} {image : UIImage} :
    (s.objects path = some image → t.objects path = some image) ∧
      (t.objects path = some image → s.objects path = some image ∨
        ∃ f ∈ t.net, f.request.upload = some path ∧ f.reply = some (.completion none)) := by
  obtain ⟨f, u, r, hi, hnone, hserved, net, rfl, hnet⟩ := serve_cases hs
  have hmem := served_mem hi hserved hnet
  generalize hreq : f.request = req at hserved
  cases hserved with
  | putData p image' k =>
    have hup : f.request.upload = some p := by rw [hreq, Request.upload]
    constructor
    · intro ho
      obtain ⟨g, hg, hgup, hgrep⟩ := h.stored path image ho
      obtain ⟨j, hj⟩ := List.mem_iff_getElem?.1 hg
      -- the object there was put by another call, to another path
      have hp : path ≠ p := by
        rintro rfl
        cases h.eq hi hj hup hgup
        cases hi.symm.trans hj
        cases hnone.symm.trans hgrep
      simpa only [Function.update_of_ne hp] using ho
    · intro ho
      by_cases hp : path = p
      · exact .inr ⟨_, hmem, hp ▸ hup, rfl⟩
      · simp only [Function.update_of_ne hp] at ho
        exact .inl ho
  | _ => exact ⟨id, .inl⟩

/-- **A step** leaves every object as it is; a new one has been uploaded. -/
theorem OnePerPath.objects_of_step (h : s.OnePerPath) {e : Event ι} (hs : s.step e = some t)
    {path : String} {image : UIImage} :
    (s.objects path = some image → t.objects path = some image) ∧
      (t.objects path = some image → s.objects path = some image ∨
        ∃ f ∈ t.net, f.request.upload = some path ∧ f.reply = some (.completion none)) := by
  by_cases hserve : ∃ i a, e = .serve i a
  · obtain ⟨i, a, rfl⟩ := hserve
    exact h.serve hs
  have hobj : t.objects = s.objects := by
    by_cases hmod : ∃ uid mod, e = .setMod uid mod
    · obtain ⟨uid, mod, rfl⟩ := hmod
      cases hs
      rfl
    · exact (step_sameBackend hs (fun i a he => hserve ⟨i, a, he⟩)
        fun uid mod he => hmod ⟨uid, mod, he⟩).objects
  rw [hobj]
  exact ⟨id, .inl⟩

theorem OnePerPath.step (h : s.OnePerPath) {e : Event ι} (hs : s.step e = some t) :
    t.OnePerPath where
  nodup := by
    rcases uploads_of_step hs with heq | ⟨id, path, hpath, hfresh, -, heq⟩
    · exact heq ▸ h.nodup
    · rw [heq, List.nodup_append]
      refine ⟨h.nodup, List.nodup_singleton _, fun p hp q hq hpq => ?_⟩
      cases List.mem_singleton.1 hq
      obtain ⟨id', hid', hpath'⟩ := h.drawn p hp
      exact hfresh (hpath.unique (hpq ▸ hpath') ▸ hid')
  drawn := by
    have huuids := (step_extends hs).uuids
    have hold : ∀ p ∈ s.uploads, ∃ id ∈ t.uuids, IsPathOf id p := fun p hp =>
      (h.drawn p hp).imp fun id hid => hid.imp_left (huuids id)
    rcases uploads_of_step hs with heq | ⟨id, path, hpath, -, hmem, heq⟩
    · exact heq ▸ hold
    · rw [heq]
      intro p hp
      rcases List.mem_append.1 hp with hp | hp
      · exact hold p hp
      · cases List.mem_singleton.1 hp
        exact ⟨id, hmem, hpath⟩
  stored := by
    intro path image ho
    rcases (h.objects_of_step hs).2 ho with hs' | hnew
    · obtain ⟨f, hf, hup, hrep⟩ := h.stored path image hs'
      obtain ⟨i, hi⟩ := List.mem_iff_getElem?.1 hf
      obtain ⟨f', hf', hg⟩ := (step_extends hs).net i f hi
      exact ⟨f', List.mem_of_getElem? hf', by rw [hg.request, hup], hg.reply _ hrep⟩
    · exact hnew

theorem onePerPath_of_reachable (h : (machine ι).Reachable s) : s.OnePerPath := by
  refine h.induct (fun s hinit => ?_) fun s e t _ ih _ hs => ih.step hs
  have hno : s.uploads = [] := by rw [uploads, hinit.net, List.filterMap_nil]
  refine ⟨hno ▸ List.nodup_nil, fun p hp => ?_, fun path image ho => ?_⟩
  · rw [hno] at hp
    cases hp
  · rw [hinit.objects] at ho
    cases ho

/-- **Pictures are written once.** No two uploads have the same path; an object in Storage is at a
path made of a drawn id and is the same in every later state. -/
theorem objects_written_once (h : (machine ι).Reachable s) {es : List (Event ι)}
    (hrun : (machine ι).Steps (fun _ _ => True) s es t) :
    t.uploads.Nodup ∧ ∀ path image, s.objects path = some image →
      (∃ id ∈ s.uuids, IsPathOf id path) ∧ t.objects path = some image := by
  refine ⟨(onePerPath_of_reachable (hrun.reachable h)).nodup, fun path image ho => ⟨?_, ?_⟩⟩
  · obtain ⟨f, hf, hup, -⟩ := (onePerPath_of_reachable h).stored path image ho
    exact (onePerPath_of_reachable h).drawn path (List.mem_filterMap.2 ⟨f, hf, hup⟩)
  · suffices hkeep : s.objects path = some image → t.objects path = some image from hkeep ho
    refine hrun.rel (R := fun s t : System ι =>
      s.objects path = some image → t.objects path = some image) h (fun _ => id)
      (fun _ _ _ hst htu => htu ∘ hst) fun s e t hs _ hstep => ?_
    exact ((onePerPath_of_reachable hs).objects_of_step hstep).1

end Uploads

/-- Ann's second post, from the same form, has another picture. -/
theorem objects_written_once_twoPictures : ∃ s t : System Unit,
    s.objects "posts/post" = some (.picked 0) ∧ t.objects "posts/other" = some (.picked 1) ∧
      t.uploads.Nodup ∧ t.objects "posts/post" = some (.picked 0) := by
  obtain ⟨s, hs, hp⟩ := (machine Unit).exists_of_run (start annAndBob) (pictureEvents .success)
    (fun s => decide (s.objects "posts/post" = some (.picked 0)) &&
      ((machine Unit).run s [.act () 4 (.didFinishPicking 1) {},
        .act () 4 .uploadPressed { uuid := "other" }, .serve 5 .success]).any
          fun t : System Unit => decide (t.objects "posts/other" = some (.picked 1)))
    (by decide +kernel)
  rw [Bool.and_eq_true, decide_eq_true_eq] at hp
  obtain ⟨t, hrun, ht⟩ := (machine Unit).exists_of_run s _ _ hp.2
  have hkeep := objects_written_once (hs.reachable (reachable_start _)) hrun
  exact ⟨s, t, hp.1, of_decide_eq_true ht, hkeep.1, (hkeep.2 _ _ hp.1).2⟩

end System

end ArtsExplorer
