import ArtsExplorer.Content.Ownership
import ArtsExplorer.Content.References
import ArtsExplorer.Foundations.ArrayField

/-!
# Saved posts

The list of saved posts of a user is changed by the save button only, on any cell of any device on
which the user is signed in, by an atomic `arrayUnion` or `arrayRemove` of one id. Over a whole run
from its start, the list is what the operations that were applied leave of the empty list
(`SavedBy`), so an id is in it if and only if the last operation on that id added it, and none is in
it twice (`saved_last_operation`). Nothing else matters, not the operations on other posts and not
the commits of the profile, which write a dictionary without that field.
-/

namespace ArtsExplorer

open Foundations

/-! ## The operations of a run -/

/-- The operations on the saved posts of user `u` in a call. -/
def Request.savedOperations (u : String) : Request → List FieldValue
  | .updateData .users id ups => if id = u then updatesOf "savedPosts" ups else []
  | _ => []

/-- Those of a call that has succeeded. -/
def Flight.savedOperations {ι : Type} (u : String) (f : Flight ι) : List FieldValue :=
  match f.reply with
  | some (.completion none) => f.request.savedOperations u
  | _ => []

/-- An update of another document has none. -/
theorem savedOperations_of_ne {u id : String} {n : CollectionName}
    {ups : List (String × FieldValue)} (h : ¬ (n = .users ∧ id = u)) :
    (Request.updateData n id ups).savedOperations u = [] := by
  unfold Request.savedOperations
  split
  · next he =>
    cases he
    exact if_neg fun hid => h ⟨rfl, hid⟩
  · rfl

namespace System

variable {ι : Type} {s t : System ι} {sync : Prop} {u : String}

/-- The operations on the saved posts of `u` that an event applies at the store. -/
def applies (u : String) (s : System ι) : Event ι → List FieldValue
  | .serve i .success =>
    match s.net[i]? with
    | some f =>
      if f.reply.isNone ∧ ((s.store .users).lookup u).isSome then f.request.savedOperations u
      else []
    | none => []
  | _ => []

/-- An addition or removal of one saved post. -/
def SaveOperation (v : FieldValue) : Prop := ∃ p, v = .arrayUnion [p] ∨ v = .arrayRemove [p]

theorem SaveOperation.isArrayOperation {v : FieldValue} (h : SaveOperation v) :
    v.IsArrayOperation := by
  obtain ⟨p, rfl | rfl⟩ := h <;> exact trivial

/-- The operations of a call are those of a press of the save button, by the user. -/
theorem saveOperation_of_mem (h : s.Inv sync) {f : Flight ι} (hf : f ∈ s.net) {v : FieldValue}
    (hv : v ∈ f.request.savedOperations u) :
    f.user = some u ∧ ∃ p, f.request = .updateData .users u [("savedPosts", v)] ∧
      (v = .arrayUnion [p] ∨ v = .arrayRemove [p]) ∧ s.Known .posts p := by
  have hcalls := h.calls f hf
  generalize hreq : f.request = req at hcalls hv
  unfold Request.savedOperations at hv
  split at hv
  · next id ups =>
    split_ifs at hv with hid
    · subst hid
      rcases hcalls.updateData_cases with ⟨-, hups, -⟩ | ⟨-, hu, p, w, rfl, hw, hp, -⟩ | ⟨-, hm, -⟩
      · -- the profile's edit has no such field
        obtain ⟨⟨key, w⟩, hmem, rfl⟩ := List.mem_map.1 hv
        rw [List.mem_filter] at hmem
        have hkey : key = "savedPosts" := by simpa using hmem.2
        rcases hups key (List.mem_map_of_mem hmem.1) with h | h | h <;>
          exact absurd (hkey.symm.trans h) (by decide)
      · have hvw : v = w := by simpa [updatesOf] using hv
        subst hvw
        exact ⟨hu, p, rfl, hw, hp⟩
      · exact absurd rfl hm.ne_users
    · cases hv
  · cases hv

/-! ## One step -/

/-- The saved posts of `u` are those that `log` leaves of an empty list; no operation is applied
before the document is there. -/
def SavedBy (u : String) (log : List FieldValue) (s : System ι) : Prop :=
  (∀ v ∈ log, SaveOperation v) ∧
    match (s.store .users).lookup u with
    | some d => d "savedPosts" = some (.array (applyAll [] log))
    | none => log = []

/-- A step that does not touch the saved posts. -/
theorem SavedBy.of_eq {log : List FieldValue} (h : SavedBy u log s)
    (hstore : (t.store .users).lookup u = (s.store .users).lookup u) : SavedBy u (log ++ []) t := by
  rw [List.append_nil, SavedBy, hstore]
  exact h

/-- A write to one document leaves the others alone. -/
theorem lookup_setStore_of_ne {n m : CollectionName} {id : String} {col : Collection}
    (hcol : u ≠ id → col.lookup u = (s.store n).lookup u) (h : ¬ (n = m ∧ id = u)) :
    ((s.setStore n col).store m).lookup u = (s.store m).lookup u := by
  by_cases hn : n = m
  · subst hn
    show (Function.update s.store n col n).lookup u = _
    rw [Function.update_self]
    exact hcol fun hid => h ⟨rfl, hid.symm⟩
  · show (Function.update s.store n col m).lookup u = _
    rw [Function.update_of_ne (Ne.symm hn)]

theorem applies_serve {i : ℕ} {f : Flight ι} (hi : s.net[i]? = some f) (hf : f.reply = none) :
    applies u s (.serve i .success) =
      if ((s.store .users).lookup u).isSome then f.request.savedOperations u else [] := by
  simp only [applies, hi, hf, Option.isNone_none, true_and]

/-- The user document after an update that was served. -/
theorem SavedBy.updateData {log : List FieldValue} (h : SavedBy u log s) (hinv : s.Inv sync)
    {f : Flight ι} (hf : f ∈ s.net) {ups : List (String × FieldValue)}
    (hreq : f.request = .updateData .users u ups) {d : Document}
    (hd : (s.store .users).lookup u = some d)
    (ht : (t.store .users).lookup u = some (d.update ups)) :
    SavedBy u (log ++ f.request.savedOperations u) t := by
  have hops : f.request.savedOperations u = updatesOf "savedPosts" ups := by
    rw [hreq, Request.savedOperations, if_pos rfl]
  have hsave : ∀ v ∈ f.request.savedOperations u, SaveOperation v := fun v hv => by
    obtain ⟨-, p, -, hp, -⟩ := saveOperation_of_mem hinv hf hv
    exact ⟨p, hp⟩
  obtain ⟨hlog, hsaved⟩ := h
  rw [hd] at hsaved
  refine ⟨fun v hv => (List.mem_append.1 hv).elim (hlog v) (hsave v), ?_⟩
  rw [ht, applyAll_append, hops]
  exact Document.update_array hsaved fun v hv => (hsave v (hops ▸ hv)).isArrayOperation

/-- **Serving a call** applies the operations of that call. -/
theorem SavedBy.serve {log : List FieldValue} (h : SavedBy u log s) (hinv : s.Inv sync)
    (hfresh : s.Fresh) {i : ℕ} {a : Answer} (hs : s.serve i a = some t) :
    SavedBy u (log ++ applies u s (.serve i a)) t := by
  obtain ⟨-, f, t', r, hi, hf, hserved, hsame, -⟩ := serve_mem hs
  have hmem := List.mem_of_getElem? hi
  have hstore := hsame.store
  have happlies := @applies_serve ι s u i f hi hf
  generalize hreq : f.request = req at hserved
  cases hserved with
  | updateData n id ups hd =>
    rw [happlies]
    by_cases hn : n = .users ∧ id = u
    · obtain ⟨rfl, rfl⟩ := hn
      rw [if_pos (by rw [hd]; rfl)]
      refine h.updateData hinv hmem hreq hd ?_
      rw [← hstore]
      simp [setStore, hd]
    · rw [hreq, savedOperations_of_ne hn, ite_self]
      refine h.of_eq ?_
      rw [← hstore]
      exact lookup_setStore_of_ne (fun hu => by rw [Collection.lookup_updateData, if_neg hu]) hn
  | missing n id ups hd =>
    rw [happlies]
    have hnone :
        (if ((s.store .users).lookup u).isSome then f.request.savedOperations u else []) = [] := by
      by_cases hn : n = .users ∧ id = u
      · obtain ⟨rfl, rfl⟩ := hn
        rw [hd]
        rfl
      · rw [hreq, savedOperations_of_ne hn, ite_self]
    rw [hnone]
    exact h.of_eq (by rw [← hstore])
  | setData n id fields k =>
    rw [happlies, hreq, Request.savedOperations, ite_self]
    · by_cases hn : n = .users ∧ id = u
      · obtain ⟨rfl, rfl⟩ := hn
        -- the document of a sign-up, which was not there before
        have hnone := (hfresh.of_setData hmem hf hreq).2.1
        obtain ⟨-, nameText, rfl⟩ := hinv.writesOwned.create_user f hmem id fields k hreq
        obtain ⟨hlog, hsaved⟩ := h
        rw [hnone] at hsaved
        subst hsaved
        refine ⟨by simp, ?_⟩
        rw [← hstore]
        simp only [setStore, Function.update_self, Collection.lookup_setData, if_pos]
        rfl
      · refine h.of_eq ?_
        rw [← hstore]
        exact lookup_setStore_of_ne (fun hu => by rw [Collection.lookup_setData, if_neg hu]) hn
    · rintro id ups ⟨⟩
  | delete n id k =>
    have hn : n ≠ .users := fun hn => hinv.writesOwned.keep_user f hmem id k (hn ▸ hreq)
    rw [happlies, hreq, Request.savedOperations, ite_self]
    · refine h.of_eq ?_
      rw [← hstore]
      exact lookup_setStore_of_ne (fun hu => by rw [Collection.lookup_delete, if_neg hu])
        fun h => hn h.1
    · rintro id ups ⟨⟩
  | failed e hr => exact h.of_eq (by rw [← hstore])
  | createUser email password uid k hfree => exact h.of_eq (by rw [← hstore])
  | document | documents | snapshot | putData | signIn =>
    rw [happlies, hreq, Request.savedOperations, ite_self]
    · exact h.of_eq (by rw [← hstore])
    · rintro id ups ⟨⟩

/-- **A step** applies the operations of the call that it serves. -/
theorem SavedBy.step [DecidableEq ι] {log : List FieldValue} (h : SavedBy u log s)
    (hinv : s.Inv sync) (hfresh : s.Fresh) {e : Event ι} (hs : s.step e = some t) :
    SavedBy u (log ++ applies u s e) t := by
  cases e with
  | serve i a => exact h.serve hinv hfresh hs
  | setMod uid mod =>
    cases hs
    obtain ⟨hlog, hsaved⟩ := h
    refine ⟨by simpa [applies] using hlog, ?_⟩
    simp only [setStore, Function.update_self, Collection.lookup_updateData, applies,
      List.append_nil]
    split_ifs with hu
    · subst hu
      cases hd : (s.store .users).lookup u with
      | none => rwa [hd] at hsaved
      | some d =>
        rw [hd] at hsaved
        show d.update [("mod", .value (.bool mod))] "savedPosts" = _
        rw [Document.update_of_notMem (by simp)]
        exact hsaved
    · exact hsaved
  | launch c =>
    have hsame := step_sameBackend hs (by simp) (by simp)
    exact h.of_eq (by rw [hsame.store])
  | act c k a env =>
    have hsame := step_sameBackend hs (by simp) (by simp)
    exact h.of_eq (by rw [hsame.store])
  | deliver i date =>
    have hsame := step_sameBackend hs (by simp) (by simp)
    exact h.of_eq (by rw [hsame.store])

/-! ## Every operation once -/

/-- What a call has applied once it is served. -/
theorem served_operations {i : ℕ} {a : Answer} {f : Flight ι} {r : Reply} (hi : s.net[i]? = some f)
    (hf : f.reply = none) (hserved : s.Served f.request a t r) :
    ({ f with reply := some r } : Flight ι).savedOperations u = applies u s (.serve i a) := by
  have happlies := @applies_serve ι s u i f hi hf
  generalize hreq : f.request = req at hserved happlies
  cases hserved with
  | updateData n id ups hd =>
    rw [happlies]
    simp only [Flight.savedOperations]
    by_cases hn : n = .users ∧ id = u
    · obtain ⟨rfl, rfl⟩ := hn
      rw [if_pos (by rw [hd]; rfl)]
    · rw [savedOperations_of_ne hn, ite_self]
  | missing n id ups hd =>
    rw [happlies]
    simp only [Flight.savedOperations]
    by_cases hn : n = .users ∧ id = u
    · obtain ⟨rfl, rfl⟩ := hn
      rw [hd]
      rfl
    · rw [savedOperations_of_ne hn, ite_self]
  | failed e hr =>
    rcases hr with rfl | rfl | rfl | rfl <;> rfl
  | createUser email password uid k hfree => rfl
  | _ =>
    rw [happlies]
    simp [Flight.savedOperations, Request.savedOperations]

/-- **Every operation is applied once**: the operations of a step are those of the calls that
succeed in it. -/
theorem claimed_of_step [DecidableEq ι] {e : Event ι} (hs : s.step e = some t) (v : FieldValue) :
    claimed (Flight.savedOperations u) t.net v =
      claimed (Flight.savedOperations u) s.net v + (applies u s e).count v := by
  by_cases hserve : ∃ i a, e = .serve i a
  · obtain ⟨i, a, rfl⟩ := hserve
    obtain ⟨f, t', r, hi, hf, hserved, net, rfl, hnet⟩ := serve_cases hs
    have hnone : f.savedOperations u = [] := by
      simp [Flight.savedOperations, hf]
    rw [hserved.frame.2.1] at hnet
    rw [← served_operations hi hf hserved]
    rcases hnet with rfl | ⟨rfl, -⟩
    · have hcount := @claimed_set _ _ _ (Flight.savedOperations u) s.net v i f hi
        { f with reply := some r }
      rw [hnone, List.count_nil] at hcount
      exact hcount
    · rw [claimed_append, claimed_cons, claimed_nil, Nat.add_zero]
  · have hne : ∀ i a, e ≠ .serve i a := fun i a he => hserve ⟨i, a, he⟩
    have hnil : applies u s e = [] := by
      cases e with
      | serve i a => exact absurd rfl (hne i a)
      | _ => rfl
    obtain ⟨t', cs, hsend, ht'⟩ := sends_of_step hs hne
    obtain ⟨new, hnet, -, hnew⟩ := hsend.net
    have hzero : claimed (Flight.savedOperations u) new v = 0 := by
      rw [claimed, List.count_eq_zero, List.mem_flatMap]
      rintro ⟨f, hf, hv⟩
      simp [Flight.savedOperations, (hnew f hf).1] at hv
    have hold : claimed (Flight.savedOperations u) t'.net v =
      claimed (Flight.savedOperations u) s.net v := by
      rcases ht' with ht' | ⟨i, date, f, r, -, hi, -, -, ht'⟩
      · rw [ht']
      · rw [ht']
        have hcount := @claimed_set _ _ _ (Flight.savedOperations u) s.net v i f hi
          { f with delivered := true }
        exact Nat.add_right_cancel hcount
    rw [hnet, claimed_append, hold, hzero, hnil, List.count_nil]

/-! ## The law -/

/-- **No bookmark is lost or duplicated.** From the start of a run on, the operations applied to the
saved posts of `u` are those of the presses of `u` whose update has succeeded, each applied once;
the list never has an id twice, and has `p` if and only if the last of the operations on `p` added
it. -/
theorem saved_last_operation [DecidableEq ι] (h₀ : s.Initial) {es : List (Event ι)}
    (hrun : (machine ι).Steps (fun _ _ => True) s es t) (u : String) :
    ((machine ι).log (applies u) s es).Perm (t.net.flatMap (Flight.savedOperations u)) ∧
      (∀ f ∈ t.net, ∀ v ∈ f.request.savedOperations u, f.user = some u ∧
        ∃ p, f.request = .updateData .users u [("savedPosts", v)] ∧
          (v = .arrayUnion [p] ∨ v = .arrayRemove [p])) ∧
      ∀ d, (t.store .users).lookup u = some d → ∃ saved, d "savedPosts" = some (.array saved) ∧
        saved.Nodup ∧ ∀ p, p ∈ saved ↔
          (((machine ι).log (applies u) s es).filter
            fun v => v = .arrayUnion [p] ∨ v = .arrayRemove [p]).getLast? =
              some (.arrayUnion [p]) := by
  have hs : (machine ι).Reachable s := .init h₀
  have hinv : ∀ {x : System ι}, (machine ι).Reachable x → x.Inv False := fun hx =>
    reachable_inv (hx.mono fun _ _ _ => False.elim)
  have hsaved : SavedBy u ((machine ι).log (applies u) s es) t := by
    refine hrun.log_induct hs ⟨by simp, ?_⟩ fun l x e y hx hl _ hstep =>
      hl.step (hinv hx) (reachable_fresh hx) hstep
    cases hd : (s.store .users).lookup u with
    | none => rfl
    | some d =>
      obtain ⟨name, bio, mod, rfl⟩ := h₀.users u d hd
      rfl
  refine ⟨?_, fun f hf v hv => ?_, fun d hd => ?_⟩
  · rw [List.perm_iff_count]
    intro v
    refine hrun.log_induct (I := fun l x => l.count v = claimed (Flight.savedOperations u) x.net v)
      hs
      ?_ fun l x e y hx hl _ hstep => ?_
    · rw [h₀.net]
      rfl
    · rw [List.count_append, hl, claimed_of_step hstep v]
  · obtain ⟨hu, p, hreq, hv, -⟩ := saveOperation_of_mem (hinv (hrun.reachable hs)) hf hv
    exact ⟨hu, p, hreq, hv⟩
  · obtain ⟨hlog, hd'⟩ := hsaved
    rw [hd] at hd'
    refine ⟨_, hd', nodup_applyAll List.nodup_nil fun v hv => (hlog v hv).isArrayOperation,
      fun p => ?_⟩
    rw [mem_applyAll, ← lastOn_eq_true_iff hlog]
    cases lastOn p ((machine ι).log (applies u) s es) <;> simp

/-- Ann has saved her post: the last operation on it added it. -/
theorem saved_last_operation_own :
    (((machine ℕ).log (applies "ann") (start annMoAndMax) ownPostEvents).filter
      fun v => v = .arrayUnion ["post"] ∨ v = .arrayRemove ["post"]).getLast? =
        some (.arrayUnion ["post"]) := by
  obtain ⟨t, hrun, hp⟩ := (machine ℕ).exists_of_run (start annMoAndMax) ownPostEvents
    (fun t => decide (t.Saved "ann" "post")) (by decide +kernel)
  obtain ⟨d, hd, hmem⟩ : t.Saved "ann" "post" := of_decide_eq_true hp
  obtain ⟨-, -, hsaved⟩ := saved_last_operation (initial_start annMoAndMax) hrun "ann"
  obtain ⟨saved, hsaved, -, hlast⟩ := hsaved d hd
  rw [hsaved] at hmem
  exact (hlast "post").1 hmem

end System

end ArtsExplorer
