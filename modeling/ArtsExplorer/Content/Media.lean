import ArtsExplorer.System.Start

/-!
# Media references

A post with a `mediaID` is shown with the Storage object under the post's id, a user with an
`avatarID` with the object under that. The object and the document that refers to it are written by
two calls that do not wait for each other, and nothing looks at the outcome of the first: a failed
upload leaves a reference that dangles (`media_dangles`).

`MediaHolds` is the condition on a step under which this does not happen. The runs that meet it are
those in which, whenever the uploads in flight have all come to a good end, no reference dangles
(`media_stored_iff`).
-/

namespace ArtsExplorer

open Foundations

/-- The Storage path that a call writes to. -/
def Request.upload : Request → Option String
  | .putData path _ _ => some path
  | _ => none

/-- The Storage path that document `id` is shown with. A post's `mediaID` is tested, its `id`
used. -/
def mediaPath : CollectionName → String → Document → Option String
  | .posts, id, d =>
    match d "mediaID" with
    | some (.string mediaID) => if mediaID ≠ "" then some ("posts/" ++ id) else none
    | _ => none
  | .users, _, d =>
    match d "avatarID" with
    | some (.string avatarID) => if avatarID ≠ "" then some ("avatars/" ++ avatarID) else none
    | _ => none
  | .comments, _, _ => none

/-- An update of other fields keeps the reference. -/
theorem mediaPath_update {n : CollectionName} {id : String} {d : Document}
    {ups : List (String × FieldValue)} (hm : "mediaID" ∉ ups.map Prod.fst)
    (ha : "avatarID" ∉ ups.map Prod.fst) : mediaPath n id (d.update ups) = mediaPath n id d := by
  cases n <;> simp only [mediaPath, Document.update_of_notMem hm, Document.update_of_notMem ha]

namespace System

variable {ι : Type} (s : System ι)

/-! ## References and objects -/

/-- A stored document refers to the object at `path`. -/
def Refers (path : String) : Prop :=
  ∃ n id d, (s.store n).lookup id = some d ∧ mediaPath n id d = some path

/-- An upload to `path` is in flight. -/
def Uploading (path : String) : Prop :=
  ∃ f ∈ s.net, f.reply = none ∧ f.request.upload = some path

instance (path : String) : Decidable (s.Uploading path) := by
  unfold Uploading
  infer_instance

/-- An upload to `path` other than call `i` is in flight. -/
def UploadingBut (i : ℕ) (path : String) : Prop :=
  ∃ j f, j ≠ i ∧ s.net[j]? = some f ∧ f.reply = none ∧ f.request.upload = some path

/-- No upload is in flight. -/
def NoUploads : Prop := ∀ path, ¬ s.Uploading path

/-- **No reference dangles.** -/
def MediaStored : Prop := ∀ path, s.Refers path → s.objects path ≠ none

/-- The object at `path` is there or on its way. -/
def Backed (path : String) : Prop := s.objects path ≠ none ∨ s.Uploading path

instance (path : String) : Decidable (s.Backed path) := by
  unfold Backed
  infer_instance

def AllBacked : Prop := ∀ path, s.Refers path → s.Backed path

/-- The path that the document refers to which a write stores. -/
def pathWritten : Request → Option String
  | .setData n id fields _ => mediaPath n id (.ofFields fields)
  | .updateData n id ups => ((s.store n).lookup id).bind fun d => mediaPath n id (d.update ups)
  | _ => none

/-- **The condition on a step.** A write is served when the object its document refers to is there
or on its way; an upload does not fail while a document refers to its object, unless that is already
there or still on its way. -/
def MediaHolds : Event ι → Prop
  | .serve i .success => ∀ f, s.net[i]? = some f → ∀ path, s.pathWritten f.request = some path →
    s.Backed path
  | .serve i (.failure _) => ∀ f, s.net[i]? = some f → ∀ path, f.request.upload = some path →
    s.Refers path → s.objects path ≠ none ∨ s.UploadingBut i path
  | _ => True

/-- Event `e` brings an upload to a good end. -/
def ServesUpload (e : Event ι) : Prop :=
  ∃ i f path, e = .serve i .success ∧ s.net[i]? = some f ∧ f.request.upload = some path

variable {s} {s' t : System ι} {i : ℕ} {path : String}

theorem uploading_iff {f : Flight ι} (hi : s.net[i]? = some f) (hf : f.reply = none) :
    s.Uploading path ↔ s.UploadingBut i path ∨ f.request.upload = some path := by
  constructor
  · rintro ⟨g, hg, hrep, hup⟩
    obtain ⟨j, hj⟩ := List.mem_iff_getElem?.1 hg
    by_cases hij : j = i
    · subst hij
      cases hi.symm.trans hj
      exact .inr hup
    · exact .inl ⟨j, g, hij, hj, hrep, hup⟩
  · rintro (⟨j, g, -, hj, hrep, hup⟩ | hup)
    · exact ⟨g, List.mem_of_getElem? hj, hrep, hup⟩
    · exact ⟨f, List.mem_of_getElem? hi, hf, hup⟩

/-- After call `i` has been served the other uploads are in flight. -/
theorem served_uploading_iff {f : Flight ι} {a : Answer} {r : Reply} {net : List (Flight ι)}
    (hi : s.net[i]? = some f) (hrep : f.reply = none) (hserved : s.Served f.request a t r)
    (hnet : net = t.net.set i { f with reply := some r } ∨
      (net = t.net ++ [{ f with reply := some r }] ∧
        ∃ n q k, f.request = .addSnapshotListener n q k)) :
    Uploading { t with net := net } path ↔ s.UploadingBut i path := by
  rw [hserved.frame.2.1] at hnet
  rcases hnet with rfl | ⟨rfl, n, q, k, hreq⟩
  · have hlt := (List.getElem?_eq_some_iff.1 hi).1
    have hset : (s.net.set i { f with reply := some r })[i]? = some { f with reply := some r } :=
      List.getElem?_set_self hlt
    constructor
    · rintro ⟨g, hg, hgrep, hup⟩
      obtain ⟨j, hj⟩ := List.mem_iff_getElem?.1 hg
      by_cases hij : j = i
      · subst hij
        cases hset.symm.trans hj
        cases hgrep
      · rw [List.getElem?_set_ne (Ne.symm hij)] at hj
        exact ⟨j, g, hij, hj, hgrep, hup⟩
    · rintro ⟨j, g, hij, hj, hgrep, hup⟩
      rw [← List.getElem?_set_ne (Ne.symm hij)] at hj
      exact ⟨g, List.mem_of_getElem? hj, hgrep, hup⟩
  · -- a snapshot listener is no upload
    have hno : f.request.upload ≠ some path := by simp [hreq, Request.upload]
    have hall : Uploading { t with net := s.net ++ [{ f with reply := some r }] } path ↔
        s.Uploading path := by
      simp [Uploading, or_and_right, exists_or]
    rw [hall, uploading_iff hi hrep]
    exact or_iff_left hno

theorem AllBacked.mediaStored (h : s.AllBacked) (hno : s.NoUploads) : s.MediaStored :=
  fun path hr =>
  (h path hr).resolve_right (hno path)

/-! ## Steps -/

/-- What refers to an object after a document has been replaced. -/
theorem refers_of_setStore {n : CollectionName} (id : String) {o : Option Document}
    {col : Collection} (hcol : ∀ j, col.lookup j = if j = id then o else (s.store n).lookup j)
    (h : Refers (s.setStore n col) path) :
    o.bind (mediaPath n id) = some path ∨ s.Refers path := by
  obtain ⟨m, j, d, hd, hpath⟩ := h
  by_cases hm : m = n
  · subst hm
    simp only [setStore, Function.update_self, hcol] at hd
    split_ifs at hd with hj
    · exact .inl (by rw [hd, ← hj]; exact hpath)
    · exact .inr ⟨m, j, d, hd, hpath⟩
  · simp only [setStore, Function.update_of_ne hm] at hd
    exact .inr ⟨m, j, d, hd, hpath⟩

/-- The document that has been written refers to its object. -/
theorem refers_setStore {n : CollectionName} {id : String} {o : Option Document} {col : Collection}
    (hcol : col.lookup id = o) (h : o.bind (mediaPath n id) = some path) :
    Refers (s.setStore n col) path := by
  obtain ⟨d, hd, hpath⟩ := Option.bind_eq_some_iff.1 h
  refine ⟨n, id, d, ?_, hpath⟩
  simp only [setStore, Function.update_self]
  rw [hcol, hd]

/-- **Serving a call** keeps every reference backed if and only if it meets the condition. -/
theorem serve_allBacked_iff (h : s.AllBacked) {a : Answer} (hs : s.serve i a = some s') :
    s'.AllBacked ↔ s.MediaHolds (.serve i a) := by
  obtain ⟨f, t, r, hi, hrep, hserved, net, rfl, hnet⟩ := serve_cases hs
  have hup : ∀ path, Uploading { t with net := net } path ↔ s.UploadingBut i path := fun path =>
    served_uploading_iff hi hrep hserved hnet
  have hall : ∀ path, s.Uploading path ↔ s.UploadingBut i path ∨ f.request.upload = some path :=
    fun path => uploading_iff hi hrep
  generalize hreq : f.request = req at hserved hall
  -- a call that is not an upload leaves the uploads in flight
  have hkeep : req.upload = none → t.objects = s.objects → ∀ path,
      Backed { t with net := net } path ↔ s.Backed path := by
    intro hno hobj path
    rw [Backed, Backed, hup, hall, hno, hobj]
    simp
  cases hserved with
  | setData n id fields k =>
    simp only [MediaHolds, hi, Option.some.injEq, forall_eq', hreq, pathWritten]
    constructor
    · intro h' path hpath
      refine (hkeep rfl rfl path).1 (h' path ?_)
      exact refers_setStore (o := some (.ofFields fields)) (by simp) hpath
    · intro hC path hr
      refine (hkeep rfl rfl path).2 ?_
      rcases refers_of_setStore id (fun j => Collection.lookup_setData _ id j _) hr with hpath | hr
      · exact hC path hpath
      · exact h path hr
  | @updateData d n id ups hd =>
    simp only [MediaHolds, hi, Option.some.injEq, forall_eq', hreq, pathWritten, hd,
      Option.bind_some]
    constructor
    · intro h' path hpath
      refine (hkeep rfl rfl path).1 (h' path ?_)
      exact refers_setStore (o := some (d.update ups)) (by simp [hd]) hpath
    · intro hC path hr
      refine (hkeep rfl rfl path).2 ?_
      rcases refers_of_setStore id (fun j => Collection.lookup_updateData _ id j ups) hr with
        hpath | hr
      · rw [hd] at hpath
        exact hC path hpath
      · exact h path hr
  | delete n id k =>
    simp only [MediaHolds, hi, Option.some.injEq, forall_eq', hreq, pathWritten]
    refine iff_of_true (fun path hr => (hkeep rfl rfl path).2 ?_) (by simp)
    rcases refers_of_setStore id (fun j => Collection.lookup_delete _ id j) hr with hpath | hr
    · cases hpath
    · exact h path hr
  | putData p image k =>
    simp only [MediaHolds, hi, Option.some.injEq, forall_eq', hreq, pathWritten]
    refine iff_of_true (fun path hr => ?_) (by simp)
    by_cases hp : path = p
    · exact .inl (by simp [hp])
    · rw [Backed, hup]
      simp only [Function.update_of_ne hp]
      refine (h path hr).imp_right fun hu => ((hall path).1 hu).resolve_right fun hpath => hp ?_
      exact (Option.some.inj hpath).symm
  | failed e hr =>
    simp only [MediaHolds, hi, Option.some.injEq, forall_eq', hreq]
    constructor
    · intro h' path _ href
      exact (h' path href).imp_right (hup path).1
    · intro hC path href
      rcases h path href with ho | hu
      · exact .inl ho
      rcases (hall path).1 hu with hbut | hpath
      · exact .inr ((hup path).2 hbut)
      · exact (hC path hpath href).imp_right (hup path).2
  | createUser email password uid k hfree =>
    exact iff_of_true (fun path hr => (hkeep rfl rfl path).2 (h path hr)) trivial
  | missing n id ups hd =>
    simp only [MediaHolds, hi, Option.some.injEq, forall_eq', hreq, pathWritten, hd]
    exact iff_of_true (fun path hr => (hkeep rfl rfl path).2 (h path hr)) (by simp)
  | _ =>
    simp only [MediaHolds, hi, Option.some.injEq, forall_eq', hreq, pathWritten]
    exact iff_of_true (fun path hr => (hkeep rfl rfl path).2 (h path hr)) (by simp)

section Steps

variable [DecidableEq ι] {e : Event ι}

/-- **A step** keeps every reference backed if and only if it meets the condition. -/
theorem step_allBacked_iff (h : s.AllBacked) (hs : s.step e = some s') :
    s'.AllBacked ↔ s.MediaHolds e := by
  by_cases hserve : ∃ i a, e = .serve i a
  · obtain ⟨i, a, rfl⟩ := hserve
    exact serve_allBacked_iff h hs
  have hno : ∀ i a, e ≠ .serve i a := fun i a he => hserve ⟨i, a, he⟩
  have hup : ∀ path, s.Uploading path → s'.Uploading path := by
    rintro path ⟨f, hf, hrep, hreq⟩
    obtain ⟨f', hf', hg, hrep'⟩ := unanswered_of_step hs hno f hf hrep
    exact ⟨f', hf', hrep', hg.request ▸ hreq⟩
  refine iff_of_true (fun path hr => ?_)
    (by cases e <;> first | trivial | exact absurd rfl (hno _ _))
  by_cases hmod : ∃ uid mod, e = .setMod uid mod
  · obtain ⟨uid, mod, rfl⟩ := hmod
    cases hs
    refine (h path ?_).imp_right (hup path)
    rcases refers_of_setStore uid (fun j => Collection.lookup_updateData _ uid j _) hr
      with hpath | hr
    · obtain ⟨d, hd, hpath⟩ := Option.bind_eq_some_iff.1 hpath
      obtain ⟨d₀, hd₀, rfl⟩ := Option.map_eq_some_iff.1 hd
      rw [mediaPath_update (by simp) (by simp)] at hpath
      exact ⟨.users, uid, d₀, hd₀, hpath⟩
    · exact hr
  · have hsame := step_sameBackend hs hno fun uid mod he => hmod ⟨uid, mod, he⟩
    unfold Refers at hr
    rw [hsame.store] at hr
    exact (h path hr).imp (fun ho => hsame.objects ▸ ho) (hup path)

/-! ## The end of the uploads -/

/-- Whenever the uploads that are in flight now have all come to a good end, no reference
dangles. -/
def Settles (s : System ι) : Prop :=
  ∀ es t, (machine ι).Steps ServesUpload s es t → t.NoUploads → t.MediaStored

theorem AllBacked.settles (h : s.AllBacked) : s.Settles := by
  intro es t hrun
  suffices ht : t.AllBacked from ht.mediaStored
  induction hrun with
  | nil => exact h
  | snoc _ hC hs ih =>
    refine (step_allBacked_iff ih hs).2 ?_
    obtain ⟨i, f, path, rfl, hi, hup⟩ := hC
    intro g hg p hp
    cases hi.symm.trans hg
    cases hreq : f.request <;> simp [hreq, Request.upload, pathWritten] at hup hp

/-- The call is an upload in flight. -/
def isUploading (f : Flight ι) : Bool := f.reply.isNone && f.request.upload.isSome

/-- The number of uploads in flight. -/
def uploadsLeft (s : System ι) : ℕ := s.net.countP isUploading

omit [DecidableEq ι] in
theorem isUploading_iff {f : Flight ι} :
    isUploading f = true ↔ f.reply = none ∧ ∃ path, f.request.upload = some path := by
  rw [isUploading, Bool.and_eq_true, Option.isNone_iff_eq_none, Option.isSome_iff_exists]

omit [DecidableEq ι] in
theorem noUploads_of_left (h : s.uploadsLeft = 0) : s.NoUploads := by
  rintro path ⟨f, hf, hrep, hup⟩
  exact List.countP_eq_zero.1 h f hf (isUploading_iff.2 ⟨hrep, path, hup⟩)

/-- An upload in flight can come to a good end: its object is there then. -/
theorem serve_upload {f : Flight ι} (hi : s.net[i]? = some f) (hrep : f.reply = none)
    (hup : f.request.upload = some path) : ∃ t, s.step (.serve i .success) = some t ∧
      t.uploadsLeft + 1 = s.uploadsLeft ∧ (∀ p, s.Refers p → t.Refers p) ∧
        ∀ p, t.Backed p → s.Backed p := by
  cases hreq : f.request with
  | putData path' image k =>
    rw [hreq] at hup
    cases hup
    have hserve : s.step (.serve i .success) = some
        { s with
          objects := Function.update s.objects path (some image)
          net := s.net.set i { f with reply := some (.completion none) } } := by
      simp [step, serve, evaluate, hi, hrep, hreq]
    refine ⟨_, hserve, ?_, fun _ h => h, ?_⟩
    · obtain ⟨hlt, hget⟩ := List.getElem?_eq_some_iff.1 hi
      have hold : isUploading f = true := isUploading_iff.2 ⟨hrep, path, by rw [hreq]; rfl⟩
      have hnew : isUploading { f with reply := some (.completion none) } = false := rfl
      have hpos : 0 < s.uploadsLeft := List.countP_pos_iff.2 ⟨f, List.mem_of_getElem? hi, hold⟩
      simp only [uploadsLeft] at hpos ⊢
      rw [List.countP_set hlt, hget, hold, hnew, if_pos rfl, if_neg (by simp)]
      omega
    · rintro p (ho | ⟨g, hg, hgrep, hgup⟩)
      · by_cases hp : p = path
        · exact .inr ⟨f, List.mem_of_getElem? hi, hrep, by rw [hreq, hp]; rfl⟩
        · simp only [Function.update_of_ne hp] at ho
          exact .inl ho
      · rcases List.mem_or_eq_of_mem_set hg with hg | rfl
        · exact .inr ⟨g, hg, hgrep, hgup⟩
        · cases hgrep
  | _ => simp [hreq, Request.upload] at hup

/-- The uploads in flight can all come to a good end. -/
theorem exists_settled (s : System ι) :
    ∃ es t, (machine ι).Steps ServesUpload s es t ∧ t.NoUploads ∧
    (∀ p, s.Refers p → t.Refers p) ∧ ∀ p, t.Backed p → s.Backed p := by
  induction hn : s.uploadsLeft generalizing s with
  | zero => exact ⟨[], s, .nil s, noUploads_of_left hn, fun _ h => h, fun _ h => h⟩
  | succ n ih =>
    obtain ⟨f, hf, hleft⟩ := List.countP_pos_iff.1 (hn.symm ▸ n.succ_pos : 0 < s.uploadsLeft)
    obtain ⟨hrep, path, hup⟩ := isUploading_iff.1 hleft
    obtain ⟨i, hi⟩ := List.mem_iff_getElem?.1 hf
    obtain ⟨t, hs, hlt, href, hback⟩ := serve_upload hi hrep hup
    obtain ⟨es, u, hrun, hno, href', hback'⟩ := ih t (by omega)
    refine ⟨_, u, (Machine.Steps.snoc (.nil s) ⟨i, f, path, rfl, hi, hup⟩ hs).trans hrun, hno,
      fun p h => href' p (href p h), fun p h => hback p (hback' p h)⟩

/-- What the condition keeps is what has to be kept. -/
theorem settles_iff : s.Settles ↔ s.AllBacked := by
  refine ⟨fun h path hr => ?_, AllBacked.settles⟩
  obtain ⟨es, t, hrun, hno, href, hback⟩ := exists_settled s
  exact hback path (.inl (h es t hrun hno path (href path hr)))

/-! ## Runs -/

omit [DecidableEq ι] in
theorem initial_allBacked (h : s.Initial) : s.AllBacked := by
  rintro path ⟨n, id, d, hd, hpath⟩
  cases n with
  | users =>
    obtain ⟨name, bio, mod, rfl⟩ := h.users id d hd
    have hnone : mediaPath .users id
      (.ofFields [("id", .string id), ("name", .string name), ("mod", .bool mod),
        ("savedPosts", .array []), ("avatarID", .string ""), ("bio", .string bio)]) = none := rfl
    rw [hnone] at hpath
    cases hpath
  | posts => simp [h.posts] at hd
  | comments => simp [h.comments] at hd

/-- **No media reference dangles** in the runs whose steps meet the condition: when no upload is in
flight, the objects that the documents refer to are there. These are the only runs in which the
uploads in flight can always still settle everything. -/
theorem media_stored_iff {s₀ : System ι} (h : s₀.Initial) (es : List (Event ι)) :
    ((machine ι).Steps MediaHolds s₀ es s → s.NoUploads → s.MediaStored) ∧
      ((machine ι).Steps (fun s e => ∀ s', s.step e = some s' → s'.Settles) s₀ es s ↔
        (machine ι).Steps MediaHolds s₀ es s) := by
  have hinit := initial_allBacked h
  refine ⟨fun hrun => AllBacked.mediaStored ?_, fun hrun => ?_, fun hrun => ?_⟩
  · induction hrun with
    | nil => exact hinit
    | snoc _ hC hs ih => exact (step_allBacked_iff ih hs).2 hC
  · refine hrun.congr (I := AllBacked) hinit fun s e s' hI hs hC => ?_
    have hback := settles_iff.1 (hC s' hs)
    exact ⟨(step_allBacked_iff hI hs).1 hback, hback⟩
  · refine hrun.congr (I := AllBacked) hinit fun s e s' hI hs hC => ?_
    refine ⟨fun t ht => ?_, (step_allBacked_iff hI hs).2 hC⟩
    exact settles_iff.2 ((step_allBacked_iff hI ht).2 hC)

end Steps

/-! ## An upload whose outcome is ignored -/

/-- Ann uploads a post with a picture; the answer to the upload of the picture, call 2, comes
last. -/
def pictureEvents (a : Answer) : List (Event Unit) :=
  logInEvents () 0 "ann@cis.edu.hk" "pass" ++
    [.act () 2 .uploadTab {}, .act () 4 (.didFinishPicking 0) {}] ++
  uploadEvents () 3 4 "post" "Sketch" 7 ++ [.serve 2 a]

/-- Post `id` is shown with a picture. -/
def HasPicture (s : System Unit) (id : String) : Prop :=
  ∃ d ∈ (s.store .posts).lookup id, mediaPath .posts id d = some ("posts/" ++ id)

instance (s : System Unit) (id : String) : Decidable (s.HasPicture id) := by
  unfold HasPicture
  infer_instance

theorem HasPicture.refers {s : System Unit} {id : String} (h : s.HasPicture id) :
    s.Refers ("posts/" ++ id) := by
  obtain ⟨d, hd, hpath⟩ := h
  exact ⟨.posts, id, d, hd, hpath⟩

/-- A check of the condition on a step, for steps that do not fail. -/
def mediaChecked (s : System Unit) : Event Unit → Bool
  | .serve i .success =>
    (s.net[i]?).all fun f => (s.pathWritten f.request).all fun path => decide (s.Backed path)
  | .serve _ (.failure _) => false
  | _ => true

theorem mediaHolds_of_checked (s : System Unit) (e : Event Unit) (h : mediaChecked s e = true) :
    s.MediaHolds e := by
  cases e with
  | serve i a =>
    cases a with
    | success =>
      intro f hf path hpath
      simp only [mediaChecked, hf, hpath, Option.all_some, decide_eq_true_eq] at h
      exact h
    | failure error => simp [mediaChecked] at h
    | created uid => trivial
  | _ => trivial

theorem media_stored_picture : ∃ s : System Unit,
    (machine Unit).Steps MediaHolds (start annAndBob) (pictureEvents .success) s ∧
      s.objects "posts/post" ≠ none ∧ s.MediaStored := by
  obtain ⟨s, hs, hp⟩ := (machine Unit).exists_of_runWhile mediaChecked mediaHolds_of_checked
    (start annAndBob) (pictureEvents .success)
    (fun s => decide (s.uploadsLeft = 0) && decide (s.HasPicture "post")) (by decide +kernel)
  rw [Bool.and_eq_true, decide_eq_true_eq, decide_eq_true_eq] at hp
  have hstored := (media_stored_iff (initial_start annAndBob) _).1 hs (noUploads_of_left hp.1)
  exact ⟨s, hs, hstored _ hp.2.refers, hstored⟩

/-- **A media reference can dangle**: the picture is not stored, the post that refers to it is. -/
theorem media_dangles : ∃ s : System Unit, (machine Unit).Reachable s ∧ s.NoUploads ∧
    (∃ d, (s.store .posts).lookup "post" = some d ∧ d "mediaID" = some (.string "post")) ∧
      s.objects "posts/post" = none ∧ ¬ s.MediaStored := by
  obtain ⟨s, hs, hp⟩ := (machine Unit).exists_of_run (start annAndBob)
    (pictureEvents (.failure "The network connection was lost."))
    (fun s => decide (s.uploadsLeft = 0) && decide (s.objects "posts/post" = none) &&
      decide (∃ d ∈ (s.store .posts).lookup "post", d "mediaID" = some (.string "post")))
    (by decide +kernel)
  simp only [Bool.and_eq_true, decide_eq_true_eq] at hp
  obtain ⟨⟨hleft, hnone⟩, d, hd, hm⟩ := hp
  have href : s.Refers "posts/post" := by
    refine ⟨.posts, "post", d, hd, ?_⟩
    simp only [mediaPath, hm]
    decide
  exact ⟨s, hs.reachable (reachable_start _), noUploads_of_left hleft, ⟨d, hd, hm⟩, hnone, fun h =>
    h _ href hnone⟩

end System

end ArtsExplorer
