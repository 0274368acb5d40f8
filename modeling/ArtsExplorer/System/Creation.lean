import ArtsExplorer.Foundations.Claims
import ArtsExplorer.System.Navigation

/-!
# A document is created once

The app creates documents in two steps: it draws a name (a `UUID()`, or the uid of a new account),
asks for the user document or for the account, and the closure of that call writes the document. So
a name is *claimed*, by the first call until its answer has been handed over and then by the write
until it has been served. `Fresh` says that a name is claimed by one call at most, that nothing is
or ever was stored under a claimed name, and that whatever is or was stored has a name that was
drawn. It holds in every reachable state (`reachable_fresh`); hence a `setData` always creates a
document, and a deleted document never comes back.
-/

namespace ArtsExplorer

open Foundations

/-! ## Claims -/

/-- The document a call would create, itself or through its closure. -/
def Callback.claims : Callback → List (CollectionName × String)
  | .uploadUser postUUID _ _ _ _ => [(.posts, postUUID)]
  | .commentUser commentID _ _ => [(.comments, commentID)]
  | _ => []

def Request.claims (r : Request) : List (CollectionName × String) :=
  (match r with
    | .setData n id _ _ => [(n, id)]
    | _ => []) ++
  match r.callback with
    | some k => k.claims
    | none => []

/-- The claims of a write that has not been served. -/
def Flight.writes {ι : Type} (f : Flight ι) : List (CollectionName × String) :=
  match f.request, f.reply with
  | .setData n id _ _, none => [(n, id)]
  | _, _ => []

/-- What the closure of a call will write on a certain answer. -/
def Callback.answerClaims : Callback → Option Reply → List (CollectionName × String)
  | .userCreated _, some (.auth (.ok uid)) => [(.users, uid)]
  | k, _ => k.claims

/-- The claims of a call whose closure has not been called. -/
def Flight.tickets {ι : Type} (f : Flight ι) : List (CollectionName × String) :=
  if f.delivered then []
  else
    match f.request.callback with
    | some k => k.answerClaims f.reply
    | none => []

@[simp] theorem Callback.answerClaims_none (k : Callback) : k.answerClaims none = k.claims := by
  cases k <;> rfl

def Flight.claims {ι : Type} (f : Flight ι) : List (CollectionName × String) :=
  f.writes ++ f.tickets

/-- The callback that goes with a call, for the two calls whose answers matter here. -/
def Request.Sound : Request → Prop
  | .addSnapshotListener _ _ k => k = .comments
  | .signIn _ _ k => k = .signedIn
  | _ => True

/-- The claims of some effects. -/
def effectClaims (es : List Effect) : List (CollectionName × String) :=
  (requests es).flatMap Request.claims

/-- The calls of some effects go with their callbacks. -/
def Sound (es : List Effect) : Prop := ∀ r ∈ requests es, r.Sound

theorem requests_append (es es' : List Effect) :
    requests (es ++ es') = requests es ++ requests es' := by
  induction es with
  | nil => rfl
  | cons e es ih => cases e <;> simp [requests, ih]

/-! ## The claims of the handlers -/

namespace Screen

variable {env : Env} {scr scr' : Screen} {es : List Effect}

theorem load_claims {d : Destination} {rs : List Request} (h : Loaded env d scr rs) :
    ∀ r ∈ rs, r.Sound ∧ r.claims = [] := by
  cases h <;> simp [Request.Sound, Request.claims, Request.callback, Callback.claims]

/-- No call of an action claims a name, but those that read the user document for an upload or a
comment. -/
theorem emits_claims {a : Action} {r : Request} (h : Emits env scr a (.request r)) :
    r.Sound ∧ (a.drawsUUID = true ∨ r.claims = []) := by
  cases h with
  | table hl he =>
    generalize a.byUser = b at he
    cases he <;> exact ⟨trivial, .inr rfl⟩
  | uploadUser | commentUser => exact ⟨trivial, .inl rfl⟩
  | signIn => exact ⟨rfl, .inr rfl⟩
  | _ => exact ⟨trivial, .inr rfl⟩

theorem act_sound {a : Action} (h : scr.act env a = some (.ok (scr', es))) : Sound es := fun _ hr =>
  (emits_claims ((act_spec h).2.2 _ (mem_requests.1 hr))).1

theorem effectClaims_append (es es' : List Effect) :
    effectClaims (es ++ es') = effectClaims es ++ effectClaims es' := by
  rw [effectClaims, requests_append, List.flatMap_append]
  rfl

theorem effectClaims_eq_nil (h : ∀ r, .request r ∈ es → r.claims = []) : effectClaims es = [] :=
  List.flatMap_eq_nil_iff.2 fun r hr => h r (mem_requests.1 hr)

/-- **An action claims** the name it has drawn, or nothing. -/
theorem act_claims {a : Action} (h : scr.act env a = some (.ok (scr', es))) :
    effectClaims es = [] ∨
      a.drawsUUID = true ∧ ∃ n, n ≠ .users ∧ effectClaims es = [(n, env.uuid)] := by
  have hem := (act_spec h).2.2
  by_cases hdraws : a.drawsUUID = true
  · refine (em (∀ r, .request r ∈ es → r.claims = [])).imp effectClaims_eq_nil fun hne =>
      ⟨hdraws, ?_⟩
    push Not at hne
    obtain ⟨r, hr, hclaims⟩ := hne
    have hemr := hem _ hr
    cases hemr with
    | table hl he =>
      generalize a.byUser = b at he
      cases he <;> exact absurd rfl hclaims
    | uploadUser u mediaID titleText descriptionText hu =>
      refine ⟨.posts, by simp, ?_⟩
      simp only [act, Option.some.injEq, lift_eq_ok, Prod.mk.injEq] at h
      obtain ⟨x, hx, -, rfl⟩ := h
      unfold UploadViewController.uploadPressed at hx
      split at hx
      · cases hx
        simp at hr
      · simp only [bind_eq_ok, Env.uid_eq_ok, pure_eq_ok] at hx
        obtain ⟨u, -, rfl⟩ := hx
        rw [effectClaims_append, effectClaims_eq_nil]
        · rfl
        · intro r hr
          split_ifs at hr
          · obtain ⟨image, -, -, himage⟩ := UploadViewController.mem_uploadImage hr
            cases himage
            rfl
          · cases hr
    | commentUser u message hu =>
      refine ⟨.comments, by simp, ?_⟩
      simp only [act, Option.some.injEq, lift_eq_ok, Prod.mk.injEq] at h
      obtain ⟨x, hx, -, rfl⟩ := h
      unfold CommentsViewController.sendCommentPressed at hx
      simp only at hx
      split_ifs at hx
      · cases hx
        simp at hr
      · simp only [bind_eq_ok, Env.uid_eq_ok, pure_eq_ok] at hx
        obtain ⟨u, -, rfl⟩ := hx
        rfl
    | _ => exact absurd rfl hclaims
  · refine .inl (effectClaims_eq_nil fun r hr => ?_)
    exact (emits_claims (hem _ hr)).2.resolve_left hdraws

/-- **A closure claims** what the call that it belongs to claimed, or nothing. -/
theorem receive_claims {k : Callback} {r : Reply}
    (h : scr.receive env k r = some (.ok (scr', es))) :
    Sound es ∧ (effectClaims es = [] ∨
      ∃ x, k.answerClaims (some r) = [x] ∧ effectClaims es = [x]) := by
  have hem := (receive_answers h).2
  refine ⟨fun r' hr' => ?_, ?_⟩
  · have := hem _ (mem_requests.1 hr')
    cases this <;> trivial
  · refine (em (∀ r, .request r ∈ es → r.claims = [])).imp effectClaims_eq_nil fun hne => ?_
    push Not at hne
    obtain ⟨r', hr', hclaims⟩ := hne
    have hemr := hem _ hr'
    cases hemr with
    | uploadSet =>
      refine ⟨_, rfl, ?_⟩
      simp only [receive, UploadViewController.userReply, Option.some.injEq, lift_eq_ok, bind_eq_ok,
        pure_eq_ok, Prod.mk.injEq] at h
      obtain ⟨_, ⟨opName, -, rfl⟩, -, rfl⟩ := h
      rfl
    | commentSet =>
      refine ⟨_, rfl, ?_⟩
      simp only [receive, CommentsViewController.userReply, Option.some.injEq, lift_eq_ok,
        bind_eq_ok,
        pure_eq_ok, Prod.mk.injEq] at h
      obtain ⟨_, ⟨opName, -, rfl⟩, -, rfl⟩ := h
      rfl
    | userSet =>
      refine ⟨_, rfl, ?_⟩
      simp only [receive, SignUpViewController.createdReply, Option.some.injEq, lift_eq_ok,
        Except.ok.injEq, Prod.mk.injEq] at h
      obtain ⟨_, rfl, -, rfl⟩ := h
      rfl
    | _ => exact absurd rfl hclaims

end Screen

/-! ## Making calls -/

namespace System

section Calls

variable {ι : Type} {s s' t u : System ι} {c : ι} {k : ℕ} {cs cs' : List (CollectionName × String)}

/-- `t` is `s` after some calls, which claim `cs`; the devices aside. -/
structure Sends (s t : System ι) (cs : List (CollectionName × String)) : Prop where
  net : ∃ new : List (Flight ι), t.net = s.net ++ new ∧ new.flatMap Flight.claims = cs ∧
    ∀ f ∈ new, f.reply = none ∧ f.delivered = false ∧ f.request.Sound
  store : t.store = s.store
  accounts : t.accounts = s.accounts
  uuids : t.uuids = s.uuids

theorem Sends.refl (s : System ι) : s.Sends s [] := ⟨⟨[], by simp⟩, rfl, rfl, rfl⟩

theorem Sends.trans (h₁ : s.Sends t cs) (h₂ : t.Sends u cs') : s.Sends u (cs ++ cs') := by
  obtain ⟨new₁, hn₁, hc₁, hf₁⟩ := h₁.net
  obtain ⟨new₂, hn₂, hc₂, hf₂⟩ := h₂.net
  refine ⟨⟨new₁ ++ new₂, by rw [hn₂, hn₁, List.append_assoc], by rw [List.flatMap_append, hc₁, hc₂],
    fun f hf => ?_⟩, h₂.store.trans h₁.store, h₂.accounts.trans h₁.accounts,
    h₂.uuids.trans h₁.uuids⟩
  rcases List.mem_append.1 hf with hf | hf
  · exact hf₁ f hf
  · exact hf₂ f hf

/-- A new call claims what its request does. -/
theorem flight_claims (r : Request) : (s.flight c k r).claims = r.claims := by
  cases r <;>
    simp [flight, Flight.claims, Flight.writes, Flight.tickets, Request.claims, Request.callback]

theorem sends_sendAll {es : List Effect} (h : Sound es) :
    s.Sends (s.sendAll c k es) (effectClaims es) := by
  rw [sendAll_eq]
  refine ⟨⟨_, rfl, ?_, fun f hf => ?_⟩, rfl, rfl, rfl⟩
  · rw [List.flatMap_map, effectClaims]
    exact List.flatMap_congr fun r _ => flight_claims r
  · obtain ⟨r, hr, rfl⟩ := List.mem_map.1 hf
    exact ⟨rfl, rfl, h r hr⟩

/-! ## Names -/

/-- A name that was drawn: by a `UUID()`, or for an account. -/
def Named (s : System ι) : CollectionName → String → Prop
  | .users, id => ∃ a ∈ s.accounts, a.uid = id
  | _, id => id ∈ s.uuids

/-- Document `id` was created, with `fields`. -/
def Created (s : System ι) (n : CollectionName) (id : String) (fields : List (String × Value)) :
    Prop :=
  ∃ f ∈ s.net, ∃ k, f.request = .setData n id fields k ∧ f.reply = some (.completion none)

/-- Documents are created once. -/
structure Fresh (s : System ι) : Prop where
  unique : ∀ x, claimed Flight.claims s.net x ≤ 1
  of_claimed : ∀ n id, 0 < claimed Flight.claims s.net (n, id) →
    s.Named n id ∧ (s.store n).lookup id = none ∧ ∀ fields, ¬ s.Created n id fields
  stored : ∀ n id d, (s.store n).lookup id = some d → s.Named n id
  created : ∀ n id fields, s.Created n id fields → s.Named n id
  once : ∀ n id fields fields', s.Created n id fields → s.Created n id fields' → fields = fields'
  sound : ∀ f ∈ s.net, f.request.Sound

theorem Extends.created (h : s.Extends s') {n : CollectionName} {id : String}
    {fields : List (String × Value)} (hc : s.Created n id fields) : s'.Created n id fields := by
  obtain ⟨f, hf, k, hreq, hrep⟩ := hc
  obtain ⟨f', hf', hg⟩ := h.mem_net hf
  exact ⟨f', hf', k, hg.request.trans hreq, hg.reply _ hrep⟩

/-- More calls with unused names. -/
theorem Fresh.sends (h : s.Fresh) {cs : List (CollectionName × String)} (hs : s.Sends s' cs)
    (hnodup : cs.Nodup)
    (hcs : ∀ x ∈ cs, claimed Flight.claims s.net x = 0 ∧ s.Named x.1 x.2 ∧
      (s.store x.1).lookup x.2 = none ∧ ∀ fields, ¬ s.Created x.1 x.2 fields) : s'.Fresh := by
  obtain ⟨new, hnet, hcl, hnew⟩ := hs.net
  have hcount : ∀ x, claimed Flight.claims s'.net x =
      claimed Flight.claims s.net x + claimed Flight.claims new x := fun x => by
    rw [hnet, claimed_append]
  have hone : ∀ x, claimed Flight.claims new x ≤ 1 := fun x => by
    rw [claimed, hcl]
    exact List.nodup_iff_count_le_one.1 hnodup x
  have hzero : ∀ x, x ∉ cs → claimed Flight.claims new x = 0 := fun x hx => by
    rw [claimed, hcl]
    exact List.count_eq_zero.2 hx
  have hnamed : ∀ n id, s'.Named n id ↔ s.Named n id := by
    intro n id
    cases n <;> simp [Named, hs.accounts, hs.uuids]
  have hcreated : ∀ n id fields, s'.Created n id fields → s.Created n id fields := by
    rintro n id fields ⟨f, hf, k, hreq, hrep⟩
    rw [hnet, List.mem_append] at hf
    rcases hf with hf | hf
    · exact ⟨f, hf, k, hreq, hrep⟩
    · rw [(hnew f hf).1] at hrep
      cases hrep
  refine ⟨fun x => ?_, fun n id hpos => ?_, fun n id d hd => ?_, fun n id fields hc => ?_,
    fun n id fields fields' hc hc' => h.once n id _ _ (hcreated _ _ _ hc) (hcreated _ _ _ hc'),
    fun f hf => ?_⟩
  · rw [hcount]
    have hold := h.unique x
    have hnew := hone x
    by_cases hx : x ∈ cs
    · have := (hcs x hx).1
      omega
    · have := hzero x hx
      omega
  · rw [hcount] at hpos
    rw [hnamed, hs.store]
    by_cases hx : (n, id) ∈ cs
    · obtain ⟨-, hn, hl, hc⟩ := hcs _ hx
      exact ⟨hn, hl, fun fields h => hc fields (hcreated _ _ _ h)⟩
    · have hz := hzero _ hx
      obtain ⟨hn, hl, hc⟩ := h.of_claimed n id (by omega)
      exact ⟨hn, hl, fun fields h => hc fields (hcreated _ _ _ h)⟩
  · rw [hnamed]
    exact h.stored n id d (hs.store ▸ hd)
  · rw [hnamed]
    exact h.created n id fields (hcreated _ _ _ hc)
  · rw [hnet, List.mem_append] at hf
    rcases hf with hf | hf
    · exact h.sound f hf
    · exact (hnew f hf).2.2

/-- A change that adds no name, no claim, no document and no call. -/
theorem Fresh.of_le (h : s.Fresh) (hnamed : ∀ n id, s.Named n id → s'.Named n id)
    (hnet : ∀ x, claimed Flight.claims s'.net x ≤ claimed Flight.claims s.net x)
    (hstore : ∀ n id, (s.store n).lookup id = none → (s'.store n).lookup id = none)
    (hcreated : ∀ n id fields, s'.Created n id fields → s.Created n id fields)
    (hsound : ∀ f ∈ s'.net, f.request.Sound) : s'.Fresh := by
  refine ⟨fun x => (hnet x).trans (h.unique x), fun n id hpos => ?_, fun n id d hd => ?_,
    fun n id fields hc => ?_,
    fun n id fields fields' hc hc' => h.once n id _ _ (hcreated _ _ _ hc) (hcreated _ _ _ hc'),
    hsound⟩
  · obtain ⟨hn, hl, hc⟩ := h.of_claimed n id (hpos.trans_le (hnet _))
    exact ⟨hnamed n id hn, hstore n id hl, fun fields h => hc fields (hcreated _ _ _ h)⟩
  · cases hl : (s.store n).lookup id with
    | none => rw [hstore n id hl] at hd; cases hd
    | some d' => exact hnamed n id (h.stored n id d' hl)
  · exact hnamed n id (h.created n id fields (hcreated _ _ _ hc))

/-! ## Serving a call -/

theorem answerClaims_of_ne {k : Callback} {r : Reply} (h : ∀ uid, r ≠ .auth (.ok uid)) :
    k.answerClaims (some r) = k.claims := by
  unfold Callback.answerClaims
  split
  · next h' => exact absurd (Option.some.inj h') (h _)
  · rfl

/-- Once it has been served, a call claims for its closure at most. -/
theorem claims_served (f : Flight ι) (r : Reply) :
    ({ f with reply := some r } : Flight ι).claims =
    ({ f with reply := some r } : Flight ι).tickets := by
  have : ({ f with reply := some r } : Flight ι).writes = [] := by
    unfold Flight.writes
    split
    · next h => cases h
    · rfl
  rw [Flight.claims, this, List.nil_append]

/-- An answer other than a new account or a log-in adds no claim. -/
theorem count_claims_served_le {f : Flight ι} (hf : f.reply = none) {r : Reply}
    (h : (∀ uid, r ≠ .auth (.ok uid)) ∨ f.request.callback = some .signedIn)
    (x : CollectionName × String) :
    ({ f with reply := some r } : Flight ι).claims.count x ≤ f.claims.count x := by
  have htick : ({ f with reply := some r } : Flight ι).tickets = f.tickets := by
    simp only [Flight.tickets, hf]
    rcases h with h | h
    · split_ifs
      · rfl
      · split
        · rw [answerClaims_of_ne h, Callback.answerClaims_none]
        · rfl
    · simp only [h]
      rfl
  rw [claims_served, htick, Flight.claims, List.count_append]
  omega

/-- What a call that is served leaves of the claims. -/
theorem Fresh.served_le (h : s.Fresh) {i : ℕ} {f : Flight ι} {t : System ι} {r : Reply}
    {net : List (Flight ι)} (hi : s.net[i]? = some f) (hf : f.reply = none)
    (hnet : net = s.net.set i { f with reply := some r } ∨
      (net = s.net ++ [{ f with reply := some r }] ∧
        ∃ n q k, f.request = .addSnapshotListener n q k))
    (hr : (∀ uid, r ≠ .auth (.ok uid)) ∨ f.request.callback = some .signedIn)
    (hset : ∀ n id fields k, f.request = .setData n id fields k → r ≠ .completion none)
    (hnamed : ∀ n id, s.Named n id → t.Named n id)
    (hstore : ∀ n id, (s.store n).lookup id = none → (t.store n).lookup id = none) :
    ({ t with net := net } : System ι).Fresh := by
  have hmem : ∀ g ∈ net, g ∈ s.net ∨ g = { f with reply := some r } := by
    intro g hg
    rcases hnet with rfl | ⟨rfl, -⟩
    · exact List.mem_or_eq_of_mem_set hg
    · simpa using hg
  refine h.of_le hnamed (fun x => ?_) hstore (fun n id fields => ?_) fun g hg => ?_
  · rcases hnet with rfl | ⟨rfl, n, q, k, hreq⟩
    · have hc := claimed_set (f := Flight.claims) (x := x) hi { f with reply := some r }
      have hle := count_claims_served_le hf hr x
      simp only at hc ⊢
      omega
    · -- a listener's answer: its callback claims nothing
      have hk := h.sound f (List.mem_of_getElem? hi)
      rw [hreq] at hk
      have hle := count_claims_served_le hf hr x
      have hzero : f.claims.count x = 0 := by
        simp only [Request.Sound] at hk
        simp [Flight.claims, Flight.writes, Flight.tickets, hreq, hf, Request.callback, hk,
          Callback.claims]
      simp only [claimed_append, claimed_cons, claimed_nil]
      omega
  · rintro ⟨g, hg, k, hreq, hrep⟩
    rcases hmem g hg with hg | rfl
    · exact ⟨g, hg, k, hreq, hrep⟩
    · exact absurd (Option.some.inj hrep) (hset n id fields k hreq)
  · rcases hmem g hg with hg | rfl
    · exact h.sound g hg
    · exact h.sound f (List.mem_of_getElem? hi)

/-- A served `setData` gives up its claim and creates the document. -/
theorem Fresh.setData (h : s.Fresh) {i : ℕ} {f : Flight ι} {n : CollectionName} {id : String}
    {fields : List (String × Value)} {k : Callback} (hi : s.net[i]? = some f) (hf : f.reply = none)
    (hreq : f.request = .setData n id fields k) :
    ({ s.setStore n ((s.store n).setData id (.ofFields fields)) with
      net := s.net.set i { f with reply := some (.completion none) } } : System ι).Fresh := by
  have hmem := List.mem_of_getElem? hi
  have hwrites : f.writes = [(n, id)] := by simp only [Flight.writes, hreq, hf]
  have htick : ({ f with reply := some (.completion none) } : Flight ι).claims = f.tickets := by
    rw [claims_served]
    simp only [Flight.tickets, hf, hreq, Request.callback]
    split_ifs
    · rfl
    · rw [answerClaims_of_ne (by simp), Callback.answerClaims_none]
  have hcl : ∀ x, f.claims.count x = [(n, id)].count x + f.tickets.count x := fun x => by
    rw [Flight.claims, hwrites, List.count_append]
  have hset : ∀ x,
    claimed Flight.claims (s.net.set i { f with reply := some (.completion none) }) x +
      [(n, id)].count x = claimed Flight.claims s.net x := fun x => by
    have := claimed_set (f := Flight.claims) (x := x) hi { f with reply := some (.completion none) }
    rw [htick, hcl] at this
    omega
  have hself : [(n, id)].count (n, id) = 1 := List.count_singleton_self
  have hone := h.unique (n, id)
  have hzero := hset (n, id)
  obtain ⟨hnamed, hnone, hnot⟩ := h.of_claimed n id (by omega)
  have hne : ∀ m j, (m, j) ≠ (n, id) →
    (((s.setStore n ((s.store n).setData id (.ofFields fields))).store m).lookup j =
      (s.store m).lookup j) := by
    intro m j hx
    by_cases hm : m = n
    · subst hm
      have hj : j ≠ id := fun hj => hx (by rw [hj])
      simp [setStore, hj]
    · simp [setStore, hm]
  have hcreated : ∀ m j fs, ({ s.setStore n ((s.store n).setData id (.ofFields fields)) with
      net := s.net.set i { f with reply := some (.completion none) } } : System ι).Created m j fs →
      (m, j, fs) = (n, id, fields) ∨ s.Created m j fs := by
    rintro m j fs ⟨g, hg, k', hgreq, hgrep⟩
    rcases List.mem_or_eq_of_mem_set hg with hg | rfl
    · exact .inr ⟨g, hg, k', hgreq, hgrep⟩
    · simp only [hreq, Request.setData.injEq] at hgreq
      exact .inl (by rw [hgreq.1, hgreq.2.1, hgreq.2.2.1])
  refine ⟨fun x => ?_, fun m j hpos => ?_, fun m j d hd => ?_, fun m j fs hc => ?_,
    fun m j fs fs' hc hc' => ?_, fun g hg => ?_⟩
  · have := h.unique x
    have := hset x
    simp only at this ⊢
    omega
  · have hx : (m, j) ≠ (n, id) := by
      intro hx
      rw [hx] at hpos
      simp only at hpos
      omega
    have := hset (m, j)
    obtain ⟨hnm, hl, hc⟩ := h.of_claimed m j (by simp only at hpos; omega)
    refine ⟨by cases m <;> exact hnm, (hne m j hx).trans hl, fun fs hfs => ?_⟩
    exact (hcreated m j fs hfs).elim (fun h => hx (by cases h; rfl)) (hc fs)
  · by_cases hx : (m, j) = (n, id)
    · cases hx
      cases n <;> exact hnamed
    · have := h.stored m j d (by rw [← hne m j hx]; exact hd)
      cases m <;> exact this
  · have : s.Named m j := (hcreated m j fs hc).elim (fun hx => by cases hx; exact hnamed)
      (h.created m j fs)
    cases m <;> exact this
  · rcases hcreated m j fs hc with h1 | h1 <;> rcases hcreated m j fs' hc' with h2 | h2
    · cases h1; cases h2; rfl
    · cases h1; exact absurd h2 (hnot fs')
    · cases h2; exact absurd h1 (hnot fs)
    · exact h.once m j fs fs' h1 h2
  · rcases List.mem_or_eq_of_mem_set hg with hg | rfl
    · exact h.sound g hg
    · exact h.sound f hmem

/-- A served `createUser` claims the new account's document. -/
theorem Fresh.createUser (h : s.Fresh) {i : ℕ} {f : Flight ι} {email password uid : String}
    {k : Callback} (hi : s.net[i]? = some f) (hf : f.reply = none)
    (hreq : f.request = .createUser email password k)
    (hfree : ∀ a ∈ s.accounts, a.email ≠ email ∧ a.uid ≠ uid) :
    ({ s with
      accounts := s.accounts ++ [⟨email, password, uid⟩]
      net := s.net.set i { f with reply := some (.auth (.ok uid)) } } : System ι).Fresh := by
  have hmem := List.mem_of_getElem? hi
  have hnot : ¬ s.Named .users uid := by
    rintro ⟨a, ha, hu⟩
    exact (hfree a ha).2 hu
  have hold : ∀ {m j}, s.Named m j → ({ s with
      accounts := s.accounts ++ [⟨email, password, uid⟩]
      net := s.net.set i { f with reply := some (.auth (.ok uid)) } } : System ι).Named m j := by
    intro m j hn
    cases m with
    | users =>
      obtain ⟨a, ha, hu⟩ := hn
      exact ⟨a, List.mem_append_left _ ha, hu⟩
    | posts | comments => exact hn
  have hnew : ∀ x, ({ f with reply := some (.auth (.ok uid)) } : Flight ι).claims.count x ≤
      f.claims.count x + [(CollectionName.users, uid)].count x := by
    intro x
    rw [claims_served, Flight.claims, List.count_append]
    simp only [Flight.tickets, hf, hreq, Request.callback]
    split_ifs
    · simp
    · cases k <;> simp only [Callback.answerClaims, Callback.claims] <;> omega
  have hcount : ∀ x,
    claimed Flight.claims (s.net.set i { f with reply := some (.auth (.ok uid)) }) x ≤
      claimed Flight.claims s.net x + [(CollectionName.users, uid)].count x := by
    intro x
    have := claimed_set (f := Flight.claims) (x := x) hi { f with reply := some (.auth (.ok uid)) }
    have := hnew x
    omega
  have hzero : claimed Flight.claims s.net (.users, uid) = 0 := by
    by_contra hpos
    exact hnot (h.of_claimed .users uid (by omega)).1
  have hcreated : ∀ m j fs, ({ s with
      accounts := s.accounts ++ [⟨email, password, uid⟩]
      net := s.net.set i { f with reply := some (.auth (.ok uid)) } } : System ι).Created m j fs →
      s.Created m j fs := by
    rintro m j fs ⟨g, hg, k', hgreq, hgrep⟩
    rcases List.mem_or_eq_of_mem_set hg with hg | rfl
    · exact ⟨g, hg, k', hgreq, hgrep⟩
    · simp [hreq] at hgreq
  refine ⟨fun x => ?_, fun m j hpos => ?_, fun m j d hd => hold (h.stored m j d hd),
    fun m j fs hc => hold (h.created m j fs (hcreated m j fs hc)),
    fun m j fs fs' hc hc' => h.once m j _ _ (hcreated _ _ _ hc) (hcreated _ _ _ hc'),
    fun g hg => ?_⟩
  · have hx := hcount x
    have hone := h.unique x
    by_cases hxu : x = (.users, uid)
    · subst hxu
      have hself : [(CollectionName.users, uid)].count (.users, uid) = 1 :=
        List.count_singleton_self
      simp only
      omega
    · have : [(CollectionName.users, uid)].count x = 0 :=
        List.count_eq_zero.2 (by simpa using hxu)
      simp only
      omega
  · by_cases hxu : (m, j) = (.users, uid)
    · cases hxu
      refine ⟨⟨_, List.mem_append_right _ List.mem_cons_self, rfl⟩, ?_, fun fs hc => ?_⟩
      · by_contra hl
        obtain ⟨d, hd⟩ := Option.ne_none_iff_exists'.1 hl
        exact hnot (h.stored _ _ d hd)
      · exact hnot (h.created _ _ _ (hcreated _ _ _ hc))
    · have hx := hcount (m, j)
      have : [(CollectionName.users, uid)].count (m, j) = 0 :=
        List.count_eq_zero.2 (by simpa using hxu)
      obtain ⟨hn, hl, hc⟩ := h.of_claimed m j (by simp only at hpos; omega)
      exact ⟨hold hn, hl, fun fs hfs => hc fs (hcreated m j fs hfs)⟩
  · rcases List.mem_or_eq_of_mem_set hg with hg | rfl
    · exact h.sound g hg
    · exact h.sound f hmem

theorem fresh_serve (h : s.Fresh) {i : ℕ} {a : Answer} (hs : s.serve i a = some s') : s'.Fresh := by
  obtain ⟨f, t, r, hi, hf, hserved, net, rfl, hnet⟩ := serve_cases hs
  have hmem := List.mem_of_getElem? hi
  rw [hserved.frame.2.1] at hnet
  generalize hreq : f.request = req at hserved
  cases hserved with
  | setData n id fields k =>
    rcases hnet with rfl | ⟨-, m, q, k', hl⟩
    · exact h.setData hi hf hreq
    · rw [hreq] at hl
      cases hl
  | createUser email password uid k hfree =>
    rcases hnet with rfl | ⟨-, m, q, k', hl⟩
    · exact h.createUser hi hf hreq hfree
    · rw [hreq] at hl
      cases hl
  | signIn email password k x hx =>
    have hk := h.sound f hmem
    rw [hreq] at hk
    simp only [Request.Sound] at hk
    exact h.served_le hi hf hnet (.inr (by rw [hreq, hk]; rfl)) (by simp) (fun _ _ h => h)
      fun _ _ h => h
  | updateData n id ups hd =>
    refine h.served_le hi hf hnet (.inl (by simp)) (by simp [hreq])
      (fun m _ h => by cases m <;> exact h) fun m j hl => ?_
    by_cases hm : m = n
    · subst hm
      simp only [setStore, Function.update_self, Collection.lookup_updateData]
      split_ifs with hj
      · rw [← hj, hl]; rfl
      · exact hl
    · simpa [setStore, hm] using hl
  | delete n id k =>
    refine h.served_le hi hf hnet (.inl (by simp)) (by simp [hreq])
      (fun m _ h => by cases m <;> exact h) fun m j hl => ?_
    by_cases hm : m = n
    · subst hm
      simp only [setStore, Function.update_self, Collection.lookup_delete]
      split_ifs
      · rfl
      · exact hl
    · simpa [setStore, hm] using hl
  | failed e hr =>
    refine h.served_le hi hf hnet (.inl ?_) ?_ (fun _ _ h => h) fun _ _ h => h
    · rintro uid rfl
      simp at hr
    · rintro n id fields k - rfl
      simp at hr
  | _ =>
    exact h.served_le hi hf hnet (.inl (by simp)) (by simp [hreq])
      (fun m _ h => by cases m <;> exact h) fun _ _ h => h

theorem fresh_draw (h : s.Fresh) (a : Action) (env : Env) : (s.draw a env).Fresh := by
  unfold draw
  split_ifs
  · refine h.of_le (fun n id hn => ?_) (fun _ => le_rfl) (fun _ _ h => h) (fun _ _ _ h => h) h.sound
    cases n with
    | users => exact hn
    | posts | comments => exact List.mem_cons_of_mem _ hn
  · exact h

/-- Handing over an answer gives up the claim of its closure. -/
theorem fresh_mark (h : s.Fresh) {i : ℕ} {f : Flight ι} (hi : s.net[i]? = some f) :
    (s.mark i f).Fresh ∧
      ∀ x, claimed Flight.claims (s.mark i f).net x + f.tickets.count x =
        claimed Flight.claims s.net x := by
  have hcl : ({ f with delivered := true } : Flight ι).claims = f.writes := by
    simp [Flight.claims, Flight.writes, Flight.tickets]
  have hcount : ∀ x, claimed Flight.claims (s.mark i f).net x + f.tickets.count x =
      claimed Flight.claims s.net x := by
    intro x
    have := claimed_set (f := Flight.claims) (x := x) hi { f with delivered := true }
    rw [hcl, Flight.claims, List.count_append] at this
    simp only [mark]
    omega
  refine ⟨h.of_le (fun n id hn => by cases n <;> exact hn) (fun x => ?_) (fun _ _ h => h) ?_ ?_,
    hcount⟩
  · have := hcount x
    omega
  · rintro n id fields ⟨g, hg, k, hreq, hrep⟩
    rcases List.mem_or_eq_of_mem_set hg with hg | rfl
    · exact ⟨g, hg, k, hreq, hrep⟩
    · exact ⟨f, List.mem_of_getElem? hi, k, hreq, hrep⟩
  · intro g hg
    rcases List.mem_or_eq_of_mem_set hg with hg | rfl
    · exact h.sound g hg
    · exact h.sound f (List.mem_of_getElem? hi)

theorem initial_fresh (h : s.Initial) : s.Fresh := by
  refine ⟨by simp [h.net], by simp [h.net], fun n id d hd => ?_, ?_, ?_, by simp [h.net]⟩
  · cases n with
    | users => exact (h.account_iff id).2 ⟨d, hd⟩
    | posts => simp [h.posts] at hd
    | comments => simp [h.comments] at hd
  · rintro n id fields ⟨f, hf, -⟩
    simp [h.net] at hf
  · rintro n id fields fields' ⟨f, hf, -⟩
    simp [h.net] at hf

theorem Fresh.quiet (h : s.Fresh) (hs : s.Sends t []) : t.Fresh := h.sends hs (by simp) (by simp)

end Calls

variable {ι : Type} [DecidableEq ι] {s s' : System ι} {c : ι} {k : ℕ}

/-! ## The calls of the handlers -/

theorem sends_modify (f : Client → Client) : s.Sends (s.modify c f) [] :=
  ⟨⟨[], by simp [modify]⟩, rfl, rfl, rfl⟩

theorem sends_openScreen (env : Env) (d : Destination) : s.Sends (s.openScreen c k env d) [] := by
  unfold openScreen
  split
  · exact sends_modify _
  · next screen effects hload =>
    obtain ⟨rs, hl, rfl⟩ := Screen.load_loaded hload
    have hrs := Screen.load_claims hl
    have hreq : ∀ r, r ∈ requests (rs.map Effect.request) ↔ r ∈ rs :=
      fun r => by simp [mem_requests]
    have hnil : effectClaims (rs.map .request) = [] :=
      Screen.effectClaims_eq_nil fun r hr => (hrs r (by simpa using hr)).2
    have hsound : Sound (rs.map .request) := fun r hr => (hrs r ((hreq r).1 hr)).1
    have hsend := (sends_modify (s := s) (c := c) fun cl => cl.openScreen k screen).trans
      (sends_sendAll (c := c) (k := (s.clients c).nodes.length) hsound)
    rwa [hnil] at hsend

theorem sends_enterHome (entrance : Entrance) : s.Sends (s.enterHome c entrance) [] := by
  have hsound : Sound HomeViewController.viewDidLoad.2 := by
    simp [Sound, HomeViewController.viewDidLoad, HomeViewController.loadPosts, requests,
      Request.Sound]
  have h := (sends_modify (s := { s with
      entries := s.entries ++ [⟨c, entrance, (s.clients c).currentUser⟩] })
    (c := c) Client.showHome).trans
      (sends_sendAll (c := c) (k := (s.clients c).nodes.length + 1) hsound)
  exact ⟨h.net, h.store, h.accounts, h.uuids⟩

theorem sends_enterInitial : s.Sends (s.enterInitial c) [] := by
  unfold enterInitial
  split_ifs
  · exact sends_modify _
  · exact (sends_modify Client.showInitial).trans (sends_enterHome .viewDidLoad)

theorem sends_performOne (env : Env) {e : Effect} (h : Sound [e]) :
    s.Sends (s.performOne c k env e) (effectClaims [e]) := by
  cases e <;> simp only [performOne]
  case request r => exact @sends_sendAll ι s c k [.request r] h
  case segue d => exact sends_openScreen env d
  case goToHome =>
    split_ifs
    · exact sends_enterHome _
    · exact .refl s
  case presentInitial => exact sends_enterInitial
  all_goals exact sends_modify _

theorem sends_perform (env : Env) {es : List Effect} (h : Sound es) :
    s.Sends (perform env s c k es) (effectClaims es) := by
  induction es generalizing s with
  | nil => exact .refl s
  | cons e es ih =>
    have he : Sound [e] := fun r hr => h r (mem_requests.2 (by
      rw [mem_requests, List.mem_singleton] at hr
      exact hr ▸ List.mem_cons_self))
    have hes : Sound es :=
      fun r hr => h r (mem_requests.2 (List.mem_cons_of_mem _ (mem_requests.1 hr)))
    have := (sends_performOne (s := s) (c := c) (k := k) env he).trans (ih hes)
    rwa [← Screen.effectClaims_append] at this

theorem sends_handle_error (env : Env) (x : Fault) : s.Sends (s.handle c k env (.error x)) [] := by
  rw [handle, crash]
  exact sends_modify _

theorem sends_handle {env : Env} {screen : Screen} {es : List Effect} (h : Sound es) :
    s.Sends (s.handle c k env (.ok (screen, es))) (effectClaims es) :=
  (sends_modify fun cl => cl.setScreen k screen).trans (sends_perform env h)

/-! ## Steps -/

theorem fresh_act (h : s.Fresh) {a : Action} {env : Env} (hs : s.act c k a env = some s') :
    s'.Fresh := by
  obtain ⟨n, r, -, -, -, hdraw, hact, rfl⟩ := act_cases hs
  have hd := fresh_draw h a env
  cases r with
  | error f => exact hd.quiet (sends_handle_error _ f)
  | ok x =>
    obtain ⟨screen, es⟩ := x
    have hsends := @sends_handle ι _ (s.draw a env) c k (s.seenBy c env) screen es
      (Screen.act_sound hact)
    rcases Screen.act_claims hact with hnil | ⟨hdraws, m, hm, hone⟩
    · exact hd.sends hsends (by simp [hnil]) (by simp [hnil])
    · -- the name has just been drawn, so nobody knew it
      have hnot : ¬ s.Named m env.uuid := by
        cases m with
        | users => exact absurd rfl hm
        | posts | comments => exact hdraw hdraws
      have heq : s.draw a env = { s with uuids := env.uuid :: s.uuids } := by simp [draw, hdraws]
      refine hd.sends hsends (by simp [hone]) fun x hx => ?_
      rw [hone, List.mem_singleton] at hx
      subst hx
      rw [heq]
      refine ⟨?_, ?_, ?_, fun fields hc => hnot (h.created m _ fields hc)⟩
      · by_contra hpos
        exact hnot (h.of_claimed m _ (Nat.pos_of_ne_zero hpos)).1
      · cases m with
        | users => exact absurd rfl hm
        | posts | comments => exact List.mem_cons_self
      · by_contra hl
        obtain ⟨d, hd⟩ := Option.ne_none_iff_exists'.1 hl
        exact hnot (h.stored m _ d hd)

theorem sends_signIn (r : Reply) : s.Sends (s.signIn c r) [] := by
  unfold signIn
  split
  · exact sends_modify _
  · exact .refl s

theorem fresh_deliver (h : s.Fresh) {i date : ℕ} (hs : s.deliver i date = some s') : s'.Fresh := by
  obtain ⟨f, r, hi, hrep, hd, hs'⟩ := deliver_cases hs
  obtain ⟨hmark, hcount⟩ := fresh_mark h hi
  rcases hs' with ⟨-, rfl⟩ | ⟨-, t, rfl, hs'⟩
  · exact hmark
  have hsign := sends_signIn (s := s.mark i f) (c := f.client) r
  rcases hs' with ⟨rfl, -⟩ | ⟨k, n, res, hk, -, hres, rfl⟩
  · exact hmark.quiet hsign
  cases res with
  | error x => exact hmark.quiet (hsign.trans (sends_handle_error _ x))
  | ok x =>
    obtain ⟨screen, es⟩ := x
    obtain ⟨hsound, hclaims⟩ := Screen.receive_claims hres
    have hsends := hsign.trans (@sends_handle ι _ _ f.client f.node
      (((s.mark i f).signIn f.client r).seenBy f.client { date := date }) screen es hsound)
    rw [List.nil_append] at hsends
    rcases hclaims with hnil | ⟨x, hx, hone⟩
    · exact hmark.sends hsends (by simp [hnil]) (by simp [hnil])
    · -- the closure passes the claim of its call on to the write
      have htick : f.tickets = [x] := by
        simp only [Flight.tickets, hd, hk, hrep, hx]
        rfl
      have hself : f.tickets.count x = 1 := by rw [htick]; exact List.count_singleton_self
      have hx1 := h.unique x
      have hx2 := hcount x
      obtain ⟨hn, hl, hc⟩ :=
        h.of_claimed x.1 x.2 (by change 0 < claimed Flight.claims s.net x; omega)
      refine hmark.sends hsends (by simp [hone]) fun y hy => ?_
      rw [hone, List.mem_singleton] at hy
      subst hy
      refine ⟨by omega, ?_, hl, fun fields hf => hc fields ?_⟩
      · obtain ⟨m, j⟩ := y
        cases m <;> exact hn
      · obtain ⟨g, hg, k', hreq, hgrep⟩ := hf
        rcases List.mem_or_eq_of_mem_set hg with hg | rfl
        · exact ⟨g, hg, k', hreq, hgrep⟩
        · exact ⟨f, List.mem_of_getElem? hi, k', hreq, hgrep⟩

/-- **Every step keeps documents created once.** -/
theorem step_fresh {e : Event ι} (h : s.Fresh) (hs : s.step e = some s') : s'.Fresh := by
  cases e with
  | launch c =>
    cases hs
    exact h.quiet ((sends_modify _).trans sends_enterInitial)
  | act c k a env => exact fresh_act h hs
  | serve i a => exact fresh_serve h hs
  | deliver i date => exact fresh_deliver h hs
  | setMod uid mod =>
    cases hs
    refine h.of_le (fun n id hn => by cases n <;> exact hn) (fun _ => le_rfl) (fun n id hl => ?_)
      (fun _ _ _ h => h) h.sound
    cases n with
    | users =>
      simp only [setStore, Function.update_self, Collection.lookup_updateData]
      split_ifs with hj
      · rw [← hj, hl]; rfl
      · exact hl
    | posts | comments => simpa [setStore] using hl

/-- **In every reachable state documents are created once.** -/
theorem reachable_fresh {C : System ι → Event ι → Prop} (h : (machine ι).Via C s) : s.Fresh :=
  h.induct (fun _ h => initial_fresh h) fun _ _ _ _ h _ hs => step_fresh h hs

/-! ## Answers -/

theorem sends_of_handle (env : Env) {r : Except Fault (After Screen)}
    (h : ∀ a, r = .ok a → Sound a.2) : ∃ cs, s.Sends (s.handle c k env r) cs := by
  cases r with
  | error x => exact ⟨_, sends_handle_error env x⟩
  | ok a => exact ⟨_, sends_handle (h a rfl)⟩

/-- What a step other than serving does to the calls: it may mark one as delivered, and makes
some. -/
theorem sends_of_step {e : Event ι} (hs : s.step e = some s') (hserve : ∀ i a, e ≠ .serve i a) :
    ∃ (t : System ι) (cs : List (CollectionName × String)), t.Sends s' cs ∧
      (t.net = s.net ∨ ∃ i date f r, e = .deliver i date ∧ s.net[i]? = some f ∧ f.reply = some r ∧
        f.delivered = false ∧ t.net = (s.mark i f).net) := by
  cases e with
  | launch c =>
    cases hs
    exact ⟨s, _, (sends_modify _).trans sends_enterInitial, .inl rfl⟩
  | act c k a env =>
    obtain ⟨n, r, -, -, -, -, hact, rfl⟩ := act_cases hs
    obtain ⟨cs, hsend⟩ := sends_of_handle (s := s.draw a env) (c := c) (k := k)
      (r := r) (s.seenBy c env) fun x hx => by
        subst hx
        exact Screen.act_sound hact
    refine ⟨s.draw a env, cs, hsend, .inl ?_⟩
    unfold draw
    split_ifs <;> rfl
  | serve i a => exact absurd rfl (hserve i a)
  | deliver i date =>
    obtain ⟨f, r, hi, hrep, hdel, hs'⟩ := deliver_cases hs
    have hmark : (s.mark i f).net = s.net ∨ ∃ j d g r, (.deliver i date : Event ι) = .deliver j d ∧
        s.net[j]? = some g ∧ g.reply = some r ∧ g.delivered = false ∧
          (s.mark i f).net = (s.mark j g).net := .inr ⟨i, date, f, r, rfl, hi, hrep, hdel, rfl⟩
    rcases hs' with ⟨-, rfl⟩ | ⟨-, t, rfl, hs'⟩
    · exact ⟨_, _, .refl _, hmark⟩
    have hsign := sends_signIn (s := s.mark i f) (c := f.client) r
    rcases hs' with ⟨rfl, -⟩ | ⟨k, n, res, -, -, hres, rfl⟩
    · exact ⟨_, _, hsign, hmark⟩
    · obtain ⟨cs, hsend⟩ := sends_of_handle (s := (s.mark i f).signIn f.client r) (c := f.client)
        (k := f.node) (r := res) (((s.mark i f).signIn f.client r).seenBy f.client { date := date })
        fun x hx => by
          subst hx
          exact (Screen.receive_claims hres).1
      exact ⟨_, _, hsign.trans hsend, hmark⟩
  | setMod uid mod =>
    cases hs
    exact ⟨_, _, .refl _, .inl rfl⟩

/-- A call after a step other than serving is new, as it was, or has just been handed over. -/
theorem call_cases {e : Event ι} (hs : s.step e = some s') (hserve : ∀ i a, e ≠ .serve i a) :
    ∀ f ∈ s'.net, (f.reply = none ∧ f.delivered = false) ∨ f ∈ s.net ∨
      ∃ i date f₀ r, e = .deliver i date ∧ s.net[i]? = some f₀ ∧ f₀.reply = some r ∧
        f₀.delivered = false ∧ f = { f₀ with delivered := true } := by
  intro f hf
  obtain ⟨t, cs, hsend, ht⟩ := sends_of_step hs hserve
  obtain ⟨new, hnet, -, hnew⟩ := hsend.net
  rw [hnet, List.mem_append] at hf
  rcases hf with hf | hf
  · right
    rcases ht with ht | ⟨i, date, g, r, rfl, hi, hrep, hdel, ht⟩
    · exact .inl (ht ▸ hf)
    rw [ht] at hf
    rcases List.mem_or_eq_of_mem_set hf with hf | rfl
    · exact .inl hf
    · exact .inr ⟨i, date, g, r, rfl, hi, hrep, hdel, rfl⟩
  · exact .inl ⟨(hnew f hf).1, (hnew f hf).2.1⟩

/-- **Only serving a call answers it.** -/
theorem reply_of_step {e : Event ι} (hs : s.step e = some s') (hserve : ∀ i a, e ≠ .serve i a) :
    ∀ f ∈ s'.net, f.reply = none ∨ ∃ f₀ ∈ s.net, f₀.Grows f ∧ f.reply = f₀.reply := by
  intro f hf
  rcases call_cases hs hserve f hf with ⟨hnone, -⟩ | hf | ⟨i, date, f₀, r, -, hi, -, -, rfl⟩
  · exact .inl hnone
  · exact .inr ⟨f, hf, .refl f, rfl⟩
  · exact .inr ⟨f₀, List.mem_of_getElem? hi,
      ⟨rfl, rfl, rfl, rfl, rfl, fun _ hr => hr, fun _ => rfl⟩, rfl⟩

/-- A call stays unanswered unless it is served. -/
theorem unanswered_of_step {e : Event ι} (hs : s.step e = some s')
    (hserve : ∀ i a, e ≠ .serve i a) :
    ∀ f ∈ s.net, f.reply = none → ∃ f' ∈ s'.net, f.Grows f' ∧ f'.reply = none := by
  intro f hf hnone
  obtain ⟨t, cs, hsend, ht⟩ := sends_of_step hs hserve
  obtain ⟨new, hnet, -, -⟩ := hsend.net
  have hold : ∃ f' ∈ t.net, f.Grows f' ∧ f'.reply = none := by
    rcases ht with ht | ⟨i, date, g, r, -, hi, -, -, ht⟩
    · exact ⟨f, ht ▸ hf, .refl f, hnone⟩
    rw [ht]
    obtain ⟨j, hj⟩ := List.mem_iff_getElem?.1 hf
    by_cases hij : i = j
    · subst hij
      cases hi.symm.trans hj
      refine ⟨_, List.mem_set (List.getElem?_eq_some_iff.1 hi).1 _, ?_, hnone⟩
      exact ⟨rfl, rfl, rfl, rfl, rfl, fun _ hr => hr, fun _ => rfl⟩
    · exact ⟨f, List.mem_of_getElem? ((List.getElem?_set_ne hij).trans hj), .refl f, hnone⟩
  obtain ⟨f', hf', hg, hr⟩ := hold
  exact ⟨f', hnet ▸ List.mem_append_left _ hf', hg, hr⟩

end System

end ArtsExplorer
