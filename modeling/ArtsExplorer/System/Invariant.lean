import ArtsExplorer.System.Provenance

/-!
# Everything is based on the history

`step_changes` says what a step can do to a document: what the write does that the step has served,
or an administrator's `setMod`. With it, and with the rules of `Provenance`, `Inv` holds in every
reachable state (`reachable_inv`).
-/

namespace ArtsExplorer

open Foundations

namespace System

/-! ## What a step does to a document -/

section Changes

variable {ι : Type} {s s' t : System ι} {n : CollectionName} {id : String} {i : ℕ}

/-- The step from `s` to `s'` on event `e` has served call `f` with success. -/
structure Serves (s s' : System ι) (e : Event ι) (f : Flight ι) : Prop where
  event : ∃ i, e = .serve i .success ∧ s.net[i]? = some f
  unserved : f.reply = none
  served : { f with reply := some (.completion none) } ∈ s'.net

theorem Serves.mem {e : Event ι} {f : Flight ι} (h : s.Serves s' e f) : f ∈ s.net := by
  obtain ⟨i, -, hi⟩ := h.event
  exact List.mem_of_getElem? hi

/-- What the step from `s` to `s'` on event `e` can do to document `id` of collection `n`. -/
inductive Changes (s s' : System ι) (e : Event ι) (n : CollectionName) (id : String) :
    Option Document → Option Document → Prop
  | unchanged (o : Option Document) : Changes s s' e n id o o
  | setData (f : Flight ι) (fields : List (String × Value)) (k : Callback) (hf : s.Serves s' e f)
      (hreq : f.request = .setData n id fields k) :
        Changes s s' e n id none (some (.ofFields fields))
  | updateData (f : Flight ι) (ups : List (String × FieldValue)) (d : Document)
      (hf : s.Serves s' e f) (hreq : f.request = .updateData n id ups) :
      Changes s s' e n id (some d) (some (d.update ups))
  | delete (f : Flight ι) (k : Callback) (o : Option Document) (hf : s.Serves s' e f)
      (hreq : f.request = .delete n id k) : Changes s s' e n id o none
  | setMod (mod : Bool) (d : Document) (hn : n = .users) (he : e = .setMod id mod) :
      Changes s s' e n id (some d) (some (d.update [("mod", .value (.bool mod))]))

/-- The name that a write would use is not in use. -/
theorem Fresh.of_setData (h : s.Fresh) {f : Flight ι} {fields : List (String × Value)}
    {k : Callback} (hf : f ∈ s.net) (hrep : f.reply = none)
    (hreq : f.request = .setData n id fields k) :
    s.Named n id ∧ (s.store n).lookup id = none ∧ ∀ fields, ¬ s.Created n id fields := by
  refine h.of_claimed n id (claimed_pos_iff.2 ⟨f, hf, ?_⟩)
  simp [Flight.claims, Flight.writes, hreq, hrep]

/-- The call that is served is in the net afterwards, with its answer. -/
theorem served_mem {f : Flight ι} {a : Answer} {r : Reply} {net : List (Flight ι)}
    (hi : s.net[i]? = some f) (hserved : s.Served f.request a t r)
    (hnet : net = t.net.set i { f with reply := some r } ∨
      (net = t.net ++ [{ f with reply := some r }] ∧
        ∃ n q k, f.request = .addSnapshotListener n q k)) : { f with reply := some r } ∈ net := by
  rcases hnet with rfl | ⟨rfl, -⟩
  · have hlt : i < t.net.length := by
      rw [hserved.frame.2.1]
      exact (List.getElem?_eq_some_iff.1 hi).1
    exact List.mem_set hlt _
  · simp

/-- What serving a call does to a document. -/
theorem serve_changes {a : Answer} (hfresh : s.Fresh) (h : s.serve i a = some s')
    (n : CollectionName) (id : String) :
    Changes s s' (.serve i a) n id ((s.store n).lookup id) ((s'.store n).lookup id) := by
  obtain ⟨f, t, r, hi, hf, hserved, net, rfl, hnet⟩ := serve_cases h
  have hmem := List.mem_of_getElem? hi
  have hdone := served_mem hi hserved hnet
  generalize hreq : f.request = req at hserved
  cases hserved with
  | setData m j fields k =>
    have hserves : s.Serves
      { s.setStore m ((s.store m).setData j (.ofFields fields)) with net := net }
        (.serve i .success) f :=
      ⟨⟨i, rfl, hi⟩, hf, hdone⟩
    by_cases hm : n = m
    · subst hm
      simp only [setStore, Function.update_self, Collection.lookup_setData]
      split_ifs with hj
      · subst hj
        rw [(hfresh.of_setData hmem hf hreq).2.1]
        exact .setData f fields k hserves hreq
      · exact .unchanged _
    · simp only [setStore, Function.update_of_ne hm]
      exact .unchanged _
  | updateData m j ups hd =>
    have hserves : s.Serves { s.setStore m ((s.store m).updateData j ups) with net := net }
        (.serve i .success) f :=
      ⟨⟨i, rfl, hi⟩, hf, hdone⟩
    by_cases hm : n = m
    · subst hm
      simp only [setStore, Function.update_self, Collection.lookup_updateData]
      split_ifs with hj
      · subst hj
        rw [hd]
        exact .updateData f ups _ hserves hreq
      · exact .unchanged _
    · simp only [setStore, Function.update_of_ne hm]
      exact .unchanged _
  | delete m j k =>
    have hserves : s.Serves { s.setStore m ((s.store m).delete j) with net := net }
        (.serve i .success) f :=
      ⟨⟨i, rfl, hi⟩, hf, hdone⟩
    by_cases hm : n = m
    · subst hm
      simp only [setStore, Function.update_self, Collection.lookup_delete]
      split_ifs with hj
      · subst hj
        exact .delete f k _ hserves hreq
      · exact .unchanged _
    · simp only [setStore, Function.update_of_ne hm]
      exact .unchanged _
  | _ => exact .unchanged _

/-- What an administrator does to a document. -/
theorem setMod_changes (uid : String) (mod : Bool) (n : CollectionName) (id : String) :
    Changes s (s.setStore .users ((s.store .users).updateData uid [("mod", .value (.bool mod))]))
      (.setMod uid mod) n id
      ((s.store n).lookup id)
      (((s.setStore .users ((s.store .users).updateData uid [("mod", .value (.bool mod))])).store
        n).lookup id) := by
  by_cases hn : n = .users
  · subst hn
    simp only [setStore, Function.update_self, Collection.lookup_updateData]
    split_ifs with hid
    · subst hid
      cases (s.store .users).lookup id with
      | none => exact .unchanged _
      | some d => exact .setMod mod d rfl rfl
    · exact .unchanged _
  · simp only [setStore, Function.update_of_ne hn]
    exact .unchanged _

/-- Serving a call leaves the devices and all other calls as they are. -/
theorem serve_mem {a : Answer} (h : s.serve i a = some s') :
    s'.clients = s.clients ∧ ∃ f t r, s.net[i]? = some f ∧ f.reply = none ∧
      s.Served f.request a t r ∧ s'.SameBackend t ∧ { f with reply := some r } ∈ s'.net ∧
      (∀ g ∈ s'.net, g ∈ s.net ∨ g = { f with reply := some r }) ∧
      ∀ g ∈ s.net, g = f ∨ g ∈ s'.net := by
  obtain ⟨f, t, r, hi, hf, hserved, net, rfl, hnet⟩ := serve_cases h
  refine ⟨hserved.frame.1, f, t, r, hi, hf, hserved, ⟨rfl, rfl, rfl⟩, ?_, fun g hg => ?_,
    fun g hg => ?_⟩
  · exact served_mem hi hserved hnet
  · rw [hserved.frame.2.1] at hnet
    rcases hnet with rfl | ⟨rfl, -⟩
    · exact List.mem_or_eq_of_mem_set hg
    · simpa using hg
  · rw [hserved.frame.2.1] at hnet
    rcases hnet with rfl | ⟨rfl, -⟩
    · obtain ⟨j, hj⟩ := List.mem_iff_getElem?.1 hg
      by_cases hij : i = j
      · subst hij
        exact .inl (Option.some.inj (hj.symm.trans hi))
      · exact .inr (List.mem_of_getElem? ((List.getElem?_set_ne hij).trans hj))
    · exact .inr (List.mem_append_left _ hg)

/-- **An answer is an old one, or the step has just served the call.** -/
theorem answered_cases [DecidableEq ι] {e : Event ι} (h : s.step e = some s') {f : Flight ι}
    {r : Reply} (hf : f ∈ s'.net) (hrep : f.reply = some r) :
    (∃ f₀ ∈ s.net, f₀.Grows f ∧ f₀.reply = some r) ∨
      ∃ i a t, e = .serve i a ∧ s.Served f.request a t r ∧ s'.SameBackend t ∧
        ∃ f₀ ∈ s.net, f₀.reply = none ∧ f = { f₀ with reply := some r } := by
  by_cases hserve : ∃ i a, e = .serve i a
  · obtain ⟨i, a, rfl⟩ := hserve
    obtain ⟨-, g, t, r', hg, hnone, hserved, hsame, -, hnet, -⟩ := serve_mem h
    rcases hnet f hf with hf | rfl
    · exact .inl ⟨f, hf, .refl f, hrep⟩
    · cases hrep
      exact .inr ⟨i, a, t, rfl, hserved, hsame, g, List.mem_of_getElem? hg, hnone, rfl⟩
  · rcases reply_of_step h (fun i a he => hserve ⟨i, a, he⟩) f hf with hnone | ⟨f₀, hf₀, hg, hr⟩
    · rw [hnone] at hrep
      cases hrep
    · exact .inl ⟨f₀, hf₀, hg, hr ▸ hrep⟩

/-- **What a step does to a document.** -/
theorem step_changes [DecidableEq ι] {e : Event ι} (hfresh : s.Fresh) (h : s.step e = some s')
    (n : CollectionName) (id : String) :
    Changes s s' e n id ((s.store n).lookup id) ((s'.store n).lookup id) := by
  by_cases hserve : ∃ i a, e = .serve i a
  · obtain ⟨i, a, rfl⟩ := hserve
    exact serve_changes hfresh h n id
  by_cases hmod : ∃ uid mod, e = .setMod uid mod
  · obtain ⟨uid, mod, rfl⟩ := hmod
    cases h
    exact setMod_changes uid mod n id
  · have hsame := step_sameBackend h (fun i a he => hserve ⟨i, a, he⟩)
      fun uid mod he => hmod ⟨uid, mod, he⟩
    rw [hsame.store]
    exact .unchanged _

end Changes

/-! ## The writes of the app -/

section Writes

variable {ι : Type} {s : System ι} {sync : Prop} {c : ι} {k : ℕ} {user : Option String}
  {n : CollectionName} {id : String}

/-- The app updates a document in three places: the profile's edit, the save button and the
approval. -/
theorem Calls.updateData_cases {ups : List (String × FieldValue)}
    (h : s.Calls sync c k user (.updateData n id ups)) :
    (n = .users ∧ (∀ key ∈ ups.map Prod.fst, key = "bio" ∨ key = "name" ∨ key = "avatarID") ∧
        ∃ nd, s.At c k nd ∧ nd.user = some id ∧ (sync → user = some id)) ∨
      (n = .users ∧ user = some id ∧ ∃ p v, ups = [("savedPosts", v)] ∧
        (v = .arrayUnion [p] ∨ v = .arrayRemove [p]) ∧ s.Known .posts p ∧ (sync → s.Fit id p)) ∨
      (ups = [("approved", .value (.bool true))] ∧ s.Moderates c k n ∧ s.ReadPending c k n id) := by
  generalize hr : Request.updateData n id ups = req at h
  cases h with
  | edit nd o ups hups hn ho hu =>
    cases hr
    exact .inl ⟨rfl, hups, nd, hn, ho, hu⟩
  | save u p v hu hp hf hv =>
    cases hr
    exact .inr (.inl ⟨rfl, hu, p, v, rfl, hv, hp, hf⟩)
  | approve n id hm hid =>
    cases hr
    exact .inr (.inr ⟨rfl, hm, hid⟩)
  | _ => cases hr

/-- It deletes documents in one. -/
theorem Calls.delete_cases {kb : Callback} (h : s.Calls sync c k user (.delete n id kb)) :
    ∃ row, kb = .denied row ∧ s.Moderates c k n ∧ s.ReadPending c k n id := by
  cases h with
  | deny n id row hm hid => exact ⟨row, rfl, hm, hid⟩

theorem Moderates.ne_users (h : s.Moderates c k n) : n ≠ .users := by
  obtain ⟨nd, m, -, hm, -⟩ := h
  rintro rfl
  cases hm

end Writes

/-! ## Serving a call -/

section Serve

variable {ι : Type} {s s' t : System ι} {e : Event ι} {sync : Prop} {n : CollectionName}
  {id : String}

/-- An answer holds what is stored. -/
theorem answerOK_of_served (h : s.Inv sync) (hfresh : s.Fresh) {f : Flight ι} (hf : f ∈ s.net)
    {a : Answer} {r : Reply} (hserved : s.Served f.request a t r) :
    s.AnswerOK sync f.client f.node f.request r := by
  have hcalls := h.calls f hf
  generalize f.request = req at hserved hcalls ⊢
  cases hserved with
  | document n id k =>
    cases hl : (s.store n).lookup id with
    | none => trivial
    | some d =>
      refine ⟨h.stored n id d hl, fun hn => ?_⟩
      subst hn
      -- the saved list is the only place where a post is read by its id
      cases hcalls with
      | savedPost nd id hnd hid hu =>
        exact ⟨nd, hnd, fun hs u hu' => h.fitsDocument hfresh hl (hu hs u hu')⟩
  | documents n q k | snapshot n q k =>
    intro d hd
    obtain ⟨id, hl, hflt⟩ := Collection.of_mem_getDocuments hd
    exact ⟨id, h.stored n id d hl, hflt⟩
  | failed e hr =>
    unfold AnswerOK
    split <;> simp at hr ⊢
  | _ => trivial

theorem savedOK_of_update {u : String} {d : Document} {ups : List (String × FieldValue)}
    (h : s.SavedOK sync u d) (hups : "savedPosts" ∉ ups.map Prod.fst) :
    s.SavedOK sync u (d.update ups) := by
  unfold SavedOK
  rw [Document.update_of_notMem hups]
  exact h

theorem documentOK_iff_recorded (hn : n ≠ .users) {d : Document} :
    s.DocumentOK sync n id d ↔ s.Recorded n id d := by
  cases n with
  | users => exact absurd rfl hn
  | posts | comments => exact Iff.rfl

/-- A document after the step is as good as it was before. -/
theorem documentOK_of_changes (h : s.Inv sync) (he : s.Extends s') {o o' : Option Document}
    (hch : Changes s s' e n id o o') (ho : ∀ d, o = some d → s.DocumentOK sync n id d) :
    ∀ d, o' = some d → s'.DocumentOK sync n id d := by
  cases hch with
  | unchanged => exact fun d hd => he.documentOK (ho d hd)
  | delete => exact fun d hd => by cases hd
  | setData f fields k hf hreq =>
    rintro _ ⟨⟩
    have hcreated : s'.Created n id fields := ⟨_, hf.served, k, hreq, rfl⟩
    have hcalls := h.calls f hf.mem
    rw [hreq] at hcalls
    cases hcalls with
    | uploadSet | commentSet => exact ⟨⟨_, hcreated, fun _ _ => rfl⟩, .inr rfl⟩
    | userSet uid nameText =>
      intro id' hid
      cases hid
  | updateData f ups d hf hreq =>
    rintro _ ⟨⟩
    have hcalls := h.calls f hf.mem
    rw [hreq] at hcalls
    have hd := he.documentOK (ho d rfl)
    rcases hcalls.updateData_cases with ⟨rfl, hups, -⟩ | ⟨rfl, -, p, v, rfl, hv, hp, hfit⟩ |
      ⟨rfl, hm, -⟩
    · refine savedOK_of_update hd fun hk => ?_
      rcases hups _ hk with h | h | h <;> exact absurd h (by decide)
    · intro x hx
      have hsame : x ∈ Value.elements (d "savedPosts") ∨ x = p := by
        rw [Document.update_singleton, Function.update_self] at hx
        rcases hv with rfl | rfl
        · simpa [FieldValue.apply, Value.elements, mem_arrayUnion] using hx
        · have : x ∈ Value.elements (d "savedPosts") ∧ x ≠ p := by
            simpa [FieldValue.apply, Value.elements] using hx
          exact .inl this.1
      rcases hsame with hx | rfl
      · exact hd x hx
      · exact ⟨he.known hp, fun hs => he.fit (hfit hs)⟩
    · have hn := hm.ne_users
      rw [documentOK_iff_recorded hn] at hd ⊢
      obtain ⟨fields, hc, hfields⟩ := hd.created
      refine ⟨⟨fields, hc, fun key hkey => ?_⟩, .inl ⟨?_, _, hf.served, hreq, rfl⟩⟩
      · rw [Document.update_singleton, Function.update_of_ne hkey]
        exact hfields key hkey
      · rw [Document.update_singleton, Function.update_self]
        rfl
  | setMod mod d hn he' =>
    subst hn
    rintro _ ⟨⟩
    exact savedOK_of_update (he.documentOK (ho d rfl)) (by simp)

/-- An approval that was served stands. -/
theorem approved_of_changes (h : s.Inv sync) (hfresh : s.Fresh) {d : Document}
    (hch : Changes s s' e n id ((s.store n).lookup id) ((s'.store n).lookup id))
    (hd : (s'.store n).lookup id = some d) (ha : s.Approved n id) :
    d "approved" = some (.bool true) := by
  rw [hd] at hch
  generalize ho : (s.store n).lookup id = o at hch
  cases hch with
  | unchanged => exact h.approved n id d ho ha
  | setData f fields k hf hfreq =>
    -- a document that has been approved was created before, so it is not created now
    obtain ⟨g, hg, hreq, -⟩ := ha
    have hcalls := h.calls g hg
    rw [hreq] at hcalls
    rcases hcalls.updateData_cases with ⟨-, hups, -⟩ | ⟨-, -, p, v, hups, -⟩ | ⟨-, -, hread⟩
    · rcases hups "approved" (by simp) with h | h | h <;> exact absurd h (by decide)
    · simp at hups
    · obtain ⟨d', -, hrec, -⟩ := hread
      obtain ⟨fields', hc, -⟩ := hrec.created
      exact absurd hc ((hfresh.of_setData hf.mem hf.unserved hfreq).2.2 fields')
  | updateData f ups d hf hfreq =>
    have hold := h.approved n id d ho ha
    have hcalls := h.calls f hf.mem
    rw [hfreq] at hcalls
    rcases hcalls.updateData_cases with ⟨-, hups, -⟩ | ⟨-, -, p, v, rfl, -⟩ | ⟨rfl, -⟩
    · rwa [Document.update_of_notMem]
      intro hk
      rcases hups _ hk with h | h | h <;> exact absurd h (by decide)
    · rwa [Document.update_of_notMem (by simp)]
    · rfl
  | setMod mod d hn he' =>
    rw [Document.update_of_notMem (by simp)]
    exact h.approved n id d ho ha

/-- A document that was created is stored until it is denied. -/
theorem kept_of_changes (h : s.Inv sync) (he : s.Extends s')
    (hch : Changes s s' e n id ((s.store n).lookup id) ((s'.store n).lookup id))
    (hk : s.Known n id) : (s'.store n).lookup id ≠ none ∨ s'.Denied n id := by
  rcases h.kept n id hk with hl | hden
  · generalize (s.store n).lookup id = o at hch hl
    generalize (s'.store n).lookup id = o' at hch
    cases hch with
    | unchanged => exact .inl hl
    | delete f k o hf hfreq =>
      have hcalls := h.calls f hf.mem
      rw [hfreq] at hcalls
      obtain ⟨row, rfl, -⟩ := hcalls.delete_cases
      exact .inr ⟨_, hf.served, row, hfreq, rfl⟩
    | _ => exact .inl (by simp)
  · exact .inr (he.denied hden)

/-- What has just been approved says so. -/
theorem approved_of_served {f : Flight ι} {a : Answer}
    (hserved : s.Served f.request a t (.completion none)) (hreq : f.request = approveRequest n id)
    {d : Document} (hd : (t.store n).lookup id = some d) :
    d "approved" = some (.bool true) := by
  rw [hreq] at hserved
  cases hserved with
  | @updateData d' _ _ _ hd' =>
    simp only [setStore, Function.update_self, Collection.lookup_updateData, if_pos, hd',
      Option.map_some, Option.some.injEq] at hd
    rw [← hd]
    rfl
  | failed e hr => simp at hr

/-- What has just been created is stored. -/
theorem kept_of_served {f : Flight ι} {fields : List (String × Value)} {k : Callback}
    {a : Answer} (hserved : s.Served f.request a t (.completion none))
    (hreq : f.request = .setData n id fields k) :
    (t.store n).lookup id ≠ none := by
  rw [hreq] at hserved
  cases hserved with
  | setData => simp [setStore]
  | failed e hr => simp at hr

/-- **Serving a call** keeps the invariant. -/
theorem inv_serve (h : s.Inv sync) (hfresh : s.Fresh) {i : ℕ} {a : Answer}
    (hs : s.serve i a = some s') : s'.Inv sync := by
  have he := extends_serve hs
  obtain ⟨hcl, f, t, r, hi, hrep, hserved, hsame, -, hnet, -⟩ := serve_mem hs
  have hf := List.mem_of_getElem? hi
  refine ⟨fun g hg => ?_, fun g hg r' hr => ?_, fun c k nd hnd => ?_, fun n id => ?_,
    fun n id d hd ha => ?_, fun n id hk => ?_⟩
  · rcases hnet g hg with hg | rfl
    · exact he.calls (h.calls g hg)
    · exact he.calls (h.calls f hf)
  · rcases hnet g hg with hg | rfl
    · exact he.answerOK (h.answers g hg r' hr)
    · cases hr
      exact he.answerOK (answerOK_of_served h hfresh hf hserved)
  · rw [At, hcl] at hnd
    exact he.screenOK (h.screens c k nd hnd)
  · exact documentOK_of_changes h he (serve_changes hfresh hs n id) (h.stored n id)
  · obtain ⟨g, hg, hreq, hgrep⟩ := ha
    rcases hnet g hg with hg | rfl
    · exact approved_of_changes h hfresh (serve_changes hfresh hs n id) hd ⟨g, hg, hreq, hgrep⟩
    · cases hgrep
      exact approved_of_served hserved hreq (hsame.store ▸ hd)
  · obtain ⟨fields, g, hg, k, hreq, hgrep⟩ := hk
    rcases hnet g hg with hg | rfl
    · exact kept_of_changes h he (serve_changes hfresh hs n id) ⟨fields, g, hg, k, hreq, hgrep⟩
    · cases hgrep
      rw [← hsame.store]
      exact .inl (kept_of_served hserved hreq)

end Serve

/-! ## Steps -/

section Steps

variable {ι : Type} [DecidableEq ι] {s s' : System ι} {sync : Prop}

omit [DecidableEq ι] in
theorem inv_mark (h : s.Inv sync) {i : ℕ} {f : Flight ι} (hi : s.net[i]? = some f) :
    (s.mark i f).Inv sync := by
  refine h.extend (extends_mark hi) rfl (fun g hg => .inr ?_) fun _ _ _ hn => .inl hn
  rcases List.mem_or_eq_of_mem_set hg with hg | rfl
  · exact ⟨g, hg, .refl g, rfl⟩
  · exact ⟨f, List.mem_of_getElem? hi, ⟨rfl, rfl, rfl, rfl, rfl, fun _ hr => hr, fun _ => rfl⟩, rfl⟩

theorem inv_signIn (h : s.Inv sync) (c : ι) (r : Reply) : (s.signIn c r).Inv sync := by
  unfold signIn
  split
  · exact h.modify_of_nodes rfl
  · exact h

theorem inv_deliver (h : s.Inv sync) {i date : ℕ} (hs : s.deliver i date = some s') :
    s'.Inv sync := by
  obtain ⟨f, r, hi, hrep, -, ⟨-, rfl⟩ | ⟨-, t, ht, hs'⟩⟩ := deliver_cases hs
  · exact inv_mark h hi
  have hsign : t.Inv sync := ht ▸ inv_signIn (inv_mark h hi) f.client r
  rcases hs' with ⟨rfl, -⟩ | ⟨k, n, res, hk, hn, hres, rfl⟩
  · exact hsign
  have hnet : t.net = s.net.set i { f with delivered := true } := by
    rw [ht]
    unfold signIn
    split <;> rfl
  have hmem : { f with delivered := true } ∈ t.net := by
    rw [hnet]
    exact List.mem_set (List.getElem?_eq_some_iff.1 hi).1 _
  refine hsign.handle hn fun screen es hr => ?_
  subst hr
  obtain ⟨htidy, hans⟩ := Screen.receive_answers hres
  have ho : t.HandsOver { f with delivered := true } r k n := ⟨hmem, rfl, hrep, hk, hn⟩
  refine ⟨Screen.receive_kind hres,
    screenOK_of_receive (f := { f with delivered := true }) hsign ho hres, htidy,
    fun e he => effectOK_of_answers (f := { f with delivered := true }) hsign ho
      (fun uid hr => ?_) (hans e he)⟩
  rw [ht, hr]
  simp [signIn]

omit [DecidableEq ι] in
theorem inv_draw (h : s.Inv sync) (a : Action) (env : Env) : (s.draw a env).Inv sync := by
  refine h.extend (extends_draw a env) ?_ (fun f hf => .inr ⟨f, ?_, .refl f, rfl⟩)
    fun c k n hn => .inl (by rwa [At, clients_draw] at hn)
  · unfold draw
    split_ifs <;> rfl
  · unfold draw at hf
    split_ifs at hf <;> exact hf

theorem inv_act (h : s.Inv sync) (hnav : ∀ c, (s.clients c).Nav sync False) {c : ι} {k : ℕ}
    {a : Action} {env : Env} (hs : s.act c k a env = some s') : s'.Inv sync := by
  obtain ⟨n, r, hn, -, hreach, -, hact, rfl⟩ := act_cases hs
  have hd := inv_draw h a env
  have hn' : (s.draw a env).At c k n := by rwa [At, clients_draw]
  refine hd.handle hn' fun screen es hr => ?_
  subst hr
  obtain ⟨hkind, htidy, hem⟩ := Screen.act_spec hact
  have hok := hd.screens c k n hn'
  refine ⟨hkind, hok.follows (Screen.act_follows hact), htidy, fun e he => ?_⟩
  refine effectOK_of_emits hn' hok ?_ (fun hby hinner hs => ?_) (hem e he)
  · rw [clients_draw]
    rfl
  · rw [clients_draw]
    have hr := hreach hby
    exact (hnav c).user hs k n hn hr.1 (((hnav c).reaches hn hr).2 hinner)

/-- **Every step keeps the invariant.** -/
theorem step_inv {e : Event ι} (h : s.Inv sync) (hfresh : s.Fresh)
    (hnav : ∀ c, (s.clients c).Nav sync False) (hs : s.step e = some s') : s'.Inv sync := by
  cases e with
  | launch c =>
    cases hs
    have hrun : (s.modify c fun cl =>
        { cl with epoch := cl.epoch + 1, running := true, fault := none }).Inv sync :=
      h.modify_of_nodes rfl
    exact hrun.enterInitial
  | act c k a env => exact inv_act h hnav hs
  | serve i a => exact inv_serve h hfresh hs
  | deliver i date => exact inv_deliver h hs
  | setMod uid mod =>
    have he := step_extends hs
    cases hs
    have hch := setMod_changes (s := s) uid mod
    refine ⟨fun f hf => he.calls (h.calls f hf), fun f hf r hr => he.answerOK (h.answers f hf r hr),
      fun c k n hn => he.screenOK (h.screens c k n hn),
      fun n id => documentOK_of_changes h he (hch n id) (h.stored n id), fun n id d hd ha => ?_,
      fun n id hk => ?_⟩
    · exact approved_of_changes h hfresh (hch n id) hd ha
    · exact kept_of_changes h he (hch n id) hk

omit [DecidableEq ι] in
theorem initial_inv (h : s.Initial) : s.Inv sync := by
  have hnone : ∀ c k n, ¬ s.At c k n := by
    intro c k n hn
    rw [At, h.clients c] at hn
    cases hn
  refine ⟨by simp [h.net], by simp [h.net], fun c k n hn => absurd hn (hnone c k n),
    fun n id d hd => ?_,
    fun n id d hd => ?_, fun n id hk => ?_⟩
  · cases n with
    | users =>
      obtain ⟨name, bio, mod, rfl⟩ := h.users id d hd
      intro x hx
      cases hx
    | posts => simp [h.posts] at hd
    | comments => simp [h.comments] at hd
  · rintro ⟨f, hf, -⟩
    simp [h.net] at hf
  · obtain ⟨fields, f, hf, -⟩ := hk
    simp [h.net] at hf

/-- **Everything is based on the history** in every reachable state; whose posts a screen shows is
known as long as no log-in or sign-up came late. -/
theorem reachable_inv (h : (machine ι).Via (fun s e => sync → ∀ c, ¬ s.Late c e) s) :
    s.Inv sync := by
  refine h.induct (fun _ h => initial_inv h) fun s e s' hvia hi _ hs => ?_
  have hnav : ∀ c, (s.clients c).Nav sync False :=
    reachable_nav (fun _ => sync) (fun _ => False)
      (hvia.mono fun _ _ hl c => ⟨fun hs => hl hs c, False.elim⟩)
  exact step_inv hi (reachable_fresh hvia) hnav hs

end Steps

end System

end ArtsExplorer
