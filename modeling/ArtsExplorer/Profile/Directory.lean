import ArtsExplorer.Content.Schema
import ArtsExplorer.Foundations.ArrayField
import ArtsExplorer.Foundations.Directory
import ArtsExplorer.Foundations.Refinement
import ArtsExplorer.System.Start

/-!
# The app is a directory of members

With the user documents seen as the members of a directory, a run of the app is a run of the
directory (`refines_directory`): sign-ups enrol members, commits of the profile edit its fields, the
save button keeps and drops posts, and an administrator appoints moderators. The commits of several
devices and the presses of the save button on others go through the same document, but they never
undo one another: each field, the rank and each saved post are decided by the last act on them alone
(`profile_of_run`).
-/

namespace ArtsExplorer

open Foundations

/-- The fields of a user document that the profile shows and edits. -/
inductive ProfileField
  | name
  | bio
  | avatarID
  deriving DecidableEq

namespace ProfileField

def key : ProfileField → String
  | .name => "name"
  | .bio => "bio"
  | .avatarID => "avatarID"

/-- The field with a given key. -/
def ofKey (key : String) : Option ProfileField :=
  [name, bio, avatarID].find? fun f => f.key = key

@[simp] theorem ofKey_key (f : ProfileField) : ofKey f.key = some f := by
  cases f <;> decide

theorem key_inj {f g : ProfileField} : f.key = g.key ↔ f = g := by
  refine ⟨fun h => ?_, fun h => h ▸ rfl⟩
  have hfg := congrArg ofKey h
  rwa [ofKey_key, ofKey_key, Option.some.injEq] at hfg

theorem exists_key {key : String} (h : key = "bio" ∨ key = "name" ∨ key = "avatarID") :
    ∃ f : ProfileField, f.key = key := by
  rcases h with rfl | rfl | rfl
  · exact ⟨.bio, rfl⟩
  · exact ⟨.name, rfl⟩
  · exact ⟨.avatarID, rfl⟩

theorem key_ne_mod (f : ProfileField) : f.key ≠ "mod" := by
  cases f <;> decide

theorem key_ne_savedPosts (f : ProfileField) : f.key ≠ "savedPosts" := by
  cases f <;> decide

theorem mem_schema (f : ProfileField) : (f.key, .string) ∈ CollectionName.schema .users := by
  cases f <;> decide

end ProfileField

/-- The text of a field. -/
def textAt (d : Document) (key : String) : String :=
  match d key with
  | some (.string x) => x
  | _ => ""

/-- The member that a user document stands for. -/
def memberOf (d : Document) : Member ProfileField String String where
  profile f := textAt d f.key
  moderates := d "mod" = some (.bool true)
  kept := {p | p ∈ Value.elements (d "savedPosts")}

/-- The changes of the profile in an update. -/
def profileChanges (ups : List (String × FieldValue)) : List (ProfileField × String) :=
  ups.filterMap fun u =>
    match u.2 with
    | .value (.string x) => (ProfileField.ofKey u.1).map fun f => (f, x)
    | _ => none

/-- What an update of the document of `u` is in the directory. -/
def updateAct (u : String) (ups : List (String × FieldValue)) :
    DirectoryAct String ProfileField String String :=
  match ups.lookup "savedPosts" with
  | some (.arrayUnion [p]) => .keep u p
  | some (.arrayRemove [p]) => .drop u p
  | _ => .edit u (profileChanges ups)

@[simp] theorem updateAct_key (u : String) (ups : List (String × FieldValue)) :
    (updateAct u ups).key = u := by
  unfold updateAct
  split <;> rfl

/-- An update of fields of the profile, as a commit makes it. -/
def EditsProfile (ups : List (String × FieldValue)) : Prop :=
  ∀ u ∈ ups, ∃ (f : ProfileField) (x : String), u = (f.key, .value (.string x))

section Documents

variable {d : Document} {ups : List (String × FieldValue)} {key : String} {v : Value}

theorem textAt_update (f : ProfileField) :
    textAt (Function.update d key (some v)) f.key =
      if f.key = key then textAt (fun _ => some v) f.key else textAt d f.key := by
  unfold textAt
  rw [Function.update_apply]
  split_ifs <;> rfl

theorem EditsProfile.notMem (h : EditsProfile ups) (hkey : ∀ f : ProfileField, f.key ≠ key) :
    key ∉ ups.map Prod.fst := by
  intro hmem
  obtain ⟨u, hu, rfl⟩ := List.mem_map.1 hmem
  obtain ⟨f, x, rfl⟩ := h u hu
  exact hkey f rfl

/-- A commit amends the profile. -/
theorem EditsProfile.profile (h : EditsProfile ups) :
    (memberOf (d.update ups)).profile = amend (memberOf d).profile (profileChanges ups) := by
  induction ups generalizing d with
  | nil => rfl
  | cons u ups ih =>
    obtain ⟨f, x, rfl⟩ := h u List.mem_cons_self
    have hone : (memberOf (Function.update d f.key (some (.string x)))).profile =
        Function.update (memberOf d).profile f x := by
      funext g
      rw [Function.update_apply]
      simp only [memberOf, textAt_update, ProfileField.key_inj]
      rfl
    have hchanges : profileChanges ((f.key, .value (.string x)) :: ups) =
        (f, x) :: profileChanges ups := by
      simp [profileChanges]
    rw [hchanges, Document.update, ih fun w hw => h w (List.mem_cons_of_mem _ hw)]
    simp only [FieldValue.apply, hone]
    rfl

/-- **A commit is an edit.** -/
theorem EditsProfile.after (h : EditsProfile ups) (u : String) :
    Member.after (some (memberOf d)) (updateAct u ups) = some (memberOf (d.update ups)) := by
  have hsaved := h.notMem ProfileField.key_ne_savedPosts
  have hact : updateAct u ups = .edit u (profileChanges ups) := by
    have hnone : ups.lookup "savedPosts" = none := by
      rw [List.lookup_eq_none_iff]
      intro w hw
      simpa using fun he : "savedPosts" = w.1 => hsaved (he ▸ List.mem_map_of_mem hw)
    rw [updateAct, hnone]
  rw [hact, Member.after, ← h.profile]
  simp only [memberOf, Document.update_of_notMem hsaved,
    Document.update_of_notMem (h.notMem ProfileField.key_ne_mod)]

/-- **A press of the save button** keeps or drops a post. -/
theorem after_save (u p : String) {v : FieldValue}
    (hv : v = .arrayUnion [p] ∨ v = .arrayRemove [p]) :
    Member.after (some (memberOf d)) (updateAct u [("savedPosts", v)]) =
      some (memberOf (d.update [("savedPosts", v)])) := by
  have hprofile : (memberOf (d.update [("savedPosts", v)])).profile = (memberOf d).profile := by
    funext f
    simp only [memberOf, Document.update_singleton, textAt_update,
      if_neg (ProfileField.key_ne_savedPosts f)]
  have hmod : (memberOf (d.update [("savedPosts", v)])).moderates = (memberOf d).moderates := rfl
  have hkept : (memberOf (d.update [("savedPosts", v)])).kept =
      {x | (v.onElement x).getD (x ∈ Value.elements (d "savedPosts")) = true} := by
    ext x
    exact FieldValue.mem_apply_iff
  rcases hv with rfl | rfl
  · refine congrArg some (Member.ext hprofile.symm hmod.symm ?_)
    rw [hkept]
    ext x
    by_cases hx : x = p <;> simp [FieldValue.onElement, memberOf, hx]
  · refine congrArg some (Member.ext hprofile.symm hmod.symm ?_)
    rw [hkept]
    ext x
    by_cases hx : x = p <;> simp [FieldValue.onElement, memberOf, hx]

end Documents

namespace System

variable {ι : Type}

/-- The directory of a system. -/
def directoryOf (s : System ι) : Directory String ProfileField String String := fun u =>
  ((s.store .users).lookup u).map memberOf

/-- What a call does in the directory when it succeeds. -/
def requestMemberAct (s : System ι) :
    Request → Option (DirectoryAct String ProfileField String String)
  | .setData .users u fields _ => some (.enrol u (memberOf (.ofFields fields)).profile)
  | .updateData .users u ups =>
    if ((s.store .users).lookup u).isSome then some (updateAct u ups) else none
  | _ => none

/-- What a step does in the directory. -/
def directoryAct (s : System ι) :
    Event ι → Option (DirectoryAct String ProfileField String String)
  | .serve i .success => (s.net[i]?).bind fun f => s.requestMemberAct f.request
  | .setMod u mod => if ((s.store .users).lookup u).isSome then some (.appoint u mod) else none
  | _ => none

variable [DecidableEq ι] {s t : System ι} {e : Event ι}

/-- **The members that a step's act does not concern** are as they were. -/
theorem directoryOf_of_ne (hinv : s.Inv False) (hfresh : s.Fresh) (hs : s.step e = some t)
    {u : String} (hu : ∀ a, s.directoryAct e = some a → u ≠ a.key) :
    t.directoryOf u = s.directoryOf u := by
  have hch := step_changes hfresh hs .users u
  -- a write to the document would have been the act
  have hact : ∀ f a, s.Serves t e f → s.requestMemberAct f.request = some a → u ≠ a.key := by
    intro f a hf ha
    obtain ⟨i, rfl, hi⟩ := hf.event
    exact hu a (by rw [directoryAct, hi, Option.bind_some, ha])
  unfold directoryOf
  generalize ho : (s.store .users).lookup u = o at hch
  generalize (t.store .users).lookup u = o' at hch
  cases hch with
  | unchanged => rfl
  | setData f fields k hf hreq =>
    exact absurd rfl (hact f _ hf (by rw [hreq, requestMemberAct]))
  | updateData f ups d hf hreq =>
    refine absurd (updateAct_key u ups).symm (hact f _ hf ?_)
    rw [hreq, requestMemberAct, ho, Option.isSome_some, if_pos rfl]
  | delete f k o hf hreq => exact absurd hreq (hinv.writesOwned.keep_user f hf.mem u k)
  | setMod mod d hn he =>
    refine absurd rfl (hu (.appoint u mod) ?_)
    rw [he, directoryAct, ho, Option.isSome_some, if_pos rfl]

omit [DecidableEq ι] in
/-- An update of a user document is a commit or a press of the save button. -/
theorem update_cases (hinv : s.Inv False) (htyped : s.Typed) {f : Flight ι} (hf : f ∈ s.net)
    {u : String} {ups : List (String × FieldValue)} (hreq : f.request = .updateData .users u ups) :
    EditsProfile ups ∨
      ∃ p v, ups = [("savedPosts", v)] ∧ (v = .arrayUnion [p] ∨ v = .arrayRemove [p]) := by
  have hcalls := hinv.calls f hf
  rw [hreq] at hcalls
  rcases hcalls.updateData_cases with ⟨-, hkeys, -⟩ | ⟨-, -, p, v, hups, hv, -⟩ | ⟨-, hm, -⟩
  · have hfits : Fits ups (CollectionName.schema .users) := by
      have hcall := htyped.lawful.calls f hf
      rwa [hreq] at hcall
    refine .inl fun w hw => ?_
    obtain ⟨g, hg⟩ := ProfileField.exists_key (hkeys w.1 (List.mem_map_of_mem hw))
    have htype : w.2.type = .string := hfits w hw _ g.mem_schema hg
    obtain ⟨key, v⟩ := w
    cases v with
    | value v =>
      cases v with
      | string x => exact ⟨g, x, by rw [hg]⟩
      | _ => cases htype
    | _ => cases htype
  · exact .inr ⟨p, v, hups, hv⟩
  · exact absurd rfl hm.ne_users

omit [DecidableEq ι] in
theorem requestMemberAct_cases {req : Request}
    {a : DirectoryAct String ProfileField String String} (h : s.requestMemberAct req = some a) :
    (∃ u fields k, req = .setData .users u fields k ∧
      a = .enrol u (memberOf (.ofFields fields)).profile) ∨
    ∃ u ups d, req = .updateData .users u ups ∧ (s.store .users).lookup u = some d ∧
      a = updateAct u ups := by
  unfold requestMemberAct at h
  split at h
  · cases h
    exact .inl ⟨_, _, _, rfl, rfl⟩
  · split_ifs at h with hu
    cases h
    obtain ⟨d, hd⟩ := Option.isSome_iff_exists.1 hu
    exact .inr ⟨_, _, d, rfl, hd, rfl⟩
  · cases h

omit [DecidableEq ι] in
theorem directoryAct_cases {a : DirectoryAct String ProfileField String String}
    (h : s.directoryAct e = some a) :
    (∃ i f, e = .serve i .success ∧ s.net[i]? = some f ∧
      s.requestMemberAct f.request = some a) ∨
    ∃ u mod d, e = .setMod u mod ∧ (s.store .users).lookup u = some d ∧ a = .appoint u mod := by
  unfold directoryAct at h
  split at h
  · obtain ⟨f, hi, hreq⟩ := Option.bind_eq_some_iff.1 h
    exact .inl ⟨_, f, rfl, hi, hreq⟩
  · split_ifs at h with hu
    cases h
    obtain ⟨d, hd⟩ := Option.isSome_iff_exists.1 hu
    exact .inr ⟨_, _, d, rfl, hd, rfl⟩
  · cases h

/-- **The member that a step's act concerns** becomes what the act makes of it. -/
theorem after_of_directoryAct (h : (machine ι).Reachable s) (hs : s.step e = some t)
    {a : DirectoryAct String ProfileField String String} (ha : s.directoryAct e = some a) :
    ∃ m, Member.after (s.directoryOf a.key) a = some m ∧ t.directoryOf a.key = some m := by
  have hinv : s.Inv False := reachable_inv (h.mono fun _ _ _ => False.elim)
  rcases directoryAct_cases ha with ⟨i, f, rfl, hi, hreq⟩ | ⟨u, mod, d, rfl, hd, rfl⟩
  rotate_left
  · cases hs
    simp only [directoryOf, setStore, Function.update_self, Collection.lookup_updateData,
      DirectoryAct.key, hd, if_pos, Option.map_some]
    refine ⟨_, rfl, congrArg some (Member.ext ?_ ?_ ?_)⟩
    · funext f
      simp only [memberOf, Document.update_singleton, textAt_update,
        if_neg (ProfileField.key_ne_mod f)]
    · simp [memberOf, FieldValue.apply]
    · rfl
  obtain ⟨g, w, r, hi', hrep, hserved, net, rfl, -⟩ := serve_cases hs
  cases hi.symm.trans hi'
  have hf := List.mem_of_getElem? hi
  generalize hq : f.request = req at hserved hreq
  rcases requestMemberAct_cases hreq with ⟨u, fields, k, rfl, rfl⟩ | ⟨u, ups, d, rfl, hd, rfl⟩
  · -- a sign-up
    obtain ⟨-, hnone, -⟩ := (reachable_fresh h).of_setData hf hrep hq
    obtain ⟨-, nameText, rfl⟩ := hinv.writesOwned.create_user f hf u fields k hq
    cases hserved
    simp only [directoryOf, setStore, Function.update_self, Collection.lookup_setData,
      DirectoryAct.key, hnone, if_pos, Option.map_some, Option.map_none]
    have hmod : Document.ofFields (userDocument u nameText) "mod" = some (.bool false) := rfl
    have hsaved : Document.ofFields (userDocument u nameText) "savedPosts" = some (.array []) := rfl
    refine ⟨_, rfl, congrArg some (Member.ext rfl ?_ ?_)⟩
    · simp [memberOf, hmod]
    · simp [memberOf, hsaved, Value.elements]
  · -- a commit or a press of a save button
    have hafter : Member.after (some (memberOf d)) (updateAct u ups) =
        some (memberOf (d.update ups)) := by
      rcases update_cases hinv (reachable_typed h) hf hq with hups | ⟨p, v, rfl, hv⟩
      · exact hups.after u
      · exact after_save u p hv
    cases hserved with
    | missing _ _ _ hno => rw [hno] at hd; cases hd
    | updateData =>
      refine ⟨memberOf (d.update ups), ?_, ?_⟩
      · rw [updateAct_key, directoryOf, hd]
        exact hafter
      · simp [directoryOf, setStore, hd]

/-- A step with an act is a step of the directory. -/
theorem directory_step (h : (machine ι).Reachable s) (hs : s.step e = some t)
    {a : DirectoryAct String ProfileField String String} (ha : s.directoryAct e = some a) :
    (directory String ProfileField String String).step s.directoryOf a = some t.directoryOf := by
  have hinv : s.Inv False := reachable_inv (h.mono fun _ _ _ => False.elim)
  refine Directory.step_eq_some.2 ⟨after_of_directoryAct h hs ha, fun u hu => ?_⟩
  refine directoryOf_of_ne hinv (reachable_fresh h) hs fun a' ha' => ?_
  cases ha.symm.trans ha'
  exact hu

/-- A step without one is nothing to the directory. -/
theorem directory_stays (h : (machine ι).Reachable s) (hs : s.step e = some t)
    (ha : s.directoryAct e = none) : t.directoryOf = s.directoryOf := by
  have hinv : s.Inv False := reachable_inv (h.mono fun _ _ _ => False.elim)
  funext u
  refine directoryOf_of_ne hinv (reachable_fresh h) hs fun a ha' => ?_
  rw [ha] at ha'
  cases ha'

omit [DecidableEq ι] in
/-- Nothing is saved where a run starts. -/
theorem directoryOf_initial (h : s.Initial) {u : String} {m : Member ProfileField String String}
    (hm : s.directoryOf u = some m) : m.kept = ∅ := by
  obtain ⟨d, hd, rfl⟩ := Option.map_eq_some_iff.1 hm
  have hsaved : d "savedPosts" = some (.array []) := by
    obtain ⟨name, bio, mod, rfl⟩ := h.users u d hd
    rfl
  simp [memberOf, hsaved, Value.elements]

/-- **The app refines the directory.** -/
theorem refines_directory (ι : Type) [DecidableEq ι] : (machine ι).Refines
    (directory String ProfileField String String) directoryOf directoryAct where
  initial _ h _ _ hm := directoryOf_initial h hm
  visible _ _ _ _ h hs ha := directory_step h hs ha
  hidden _ _ _ h hs ha := directory_stays h hs ha

/-- The run of the directory that a run of the system is. -/
theorem directory_steps (hs : (machine ι).Reachable s) {es : List (Event ι)}
    (hrun : (machine ι).Steps (fun _ _ => True) s es t) :
    (directory String ProfileField String String).Steps (fun _ _ => True) s.directoryOf
      ((machine ι).log (fun s e => (s.directoryAct e).toList) s es) t.directoryOf :=
  Machine.Refines.steps ⟨fun _ h _ _ hm => directoryOf_initial h hm,
    fun _ _ _ _ h hs ha => directory_step h hs ha,
    fun _ _ _ h hs ha => directory_stays h hs ha⟩ hs hrun

/-- The text of a profile field is stored. -/
theorem stored_profile (h : (machine ι).Reachable s) {u : String} {d : Document}
    (hd : (s.store .users).lookup u = some d) (f : ProfileField) :
    d f.key = some (.string ((memberOf d).profile f)) := by
  have hconforms : d.Conforms (CollectionName.schema .users) :=
    (reachable_typed h).held .users d (.inl ⟨u, hd⟩)
  obtain ⟨x, hx⟩ := hconforms.string f.mem_schema
  simp only [memberOf, textAt, hx]

/-- **The profile of a run.** From any reachable state on, a user's document is written once at
most, and stays; each field of the profile holds the text that the last served commit with that
field wrote, or the one it held; the user is a moderator as the administrator has said last; and a
post is saved if and only if the last served press of the save button on it saved it. -/
theorem profile_of_run (hs : (machine ι).Reachable s) {es : List (Event ι)}
    (hrun : (machine ι).Steps (fun _ _ => True) s es t) (u : String)
    {acts : List (DirectoryAct String ProfileField String String)}
    (hacts : acts = (machine ι).log (fun s e => (s.directoryAct e).toList) s es) :
    (s.directoryOf u).toList.length +
        (acts.filter fun a => a.key = u).countP DirectoryAct.enrols =
      (t.directoryOf u).toList.length ∧
    (∀ f, (t.directoryOf u).map (fun m => m.profile f) =
      (Directory.lastWrite (.profile f) u acts).or
        ((s.directoryOf u).map fun m => m.profile f)) ∧
    (t.directoryOf u).map (fun m => m.moderates) =
      (Directory.lastWrite .moderates u acts).or ((s.directoryOf u).map fun m => m.moderates) ∧
    (∀ p, (t.directoryOf u).map (fun m => p ∈ m.kept) =
      (Directory.lastWrite (.keeps p) u acts).or ((s.directoryOf u).map fun m => p ∈ m.kept)) ∧
    ∀ d, (t.store .users).lookup u = some d → ∀ f : ProfileField,
      d f.key = some (.string ((memberOf d).profile f)) := by
  subst hacts
  have hsteps := directory_steps hs hrun
  exact ⟨Directory.enrolled_once hsteps u, fun f => Directory.last_write (.profile f) hsteps u,
    Directory.last_write .moderates hsteps u, fun p => Directory.last_write (.keeps p) hsteps u,
    fun d hd f => stored_profile (hrun.reachable hs) hd f⟩

/-- The run in which Ann edits her profile. -/
theorem profile_of_run_edit : ∃ t : System Unit,
    ((t.store .users).lookup "ann").any (fun d => d "bio" = some (.string "Hi")) = true ∧
      (t.directoryOf "ann").map (fun m => m.profile .bio) =
        (Directory.lastWrite (.profile .bio) "ann" ((machine Unit).log
          (fun s e => (s.directoryAct e).toList) (start annAndBob) annsEdit)).or
            (((start annAndBob : System Unit).directoryOf "ann").map fun m => m.profile .bio) := by
  obtain ⟨t, ht, hp⟩ := (machine Unit).exists_of_run (start annAndBob) annsEdit
    (fun s => ((s.store .users).lookup "ann").any fun d => d "bio" = some (.string "Hi"))
    (by decide +kernel)
  exact ⟨t, hp, (profile_of_run (reachable_start annAndBob) ht "ann" rfl).2.1 .bio⟩

end System

end ArtsExplorer
