import ArtsExplorer.System.Invariant

/-!
# Where runs start

A run starts with some accounts that have user documents and with nothing else. `start ps` is that
system for the profiles `ps`; it is initial whatever they are. The lists of events below are what
the user does and the backend answers on the way to the main screens.
-/

namespace ArtsExplorer

open Foundations

/-- An account and its user document. -/
structure Profile where
  email : String
  password : String
  uid : String
  name : String
  bio : String
  mod : Bool

def Profile.document (p : Profile) : Document :=
  .ofFields [("id", .string p.uid), ("name", .string p.name), ("mod", .bool p.mod),
    ("savedPosts", .array []), ("avatarID", .string ""), ("bio", .string p.bio)]

namespace System

variable {ι : Type}

/-- The user documents of some profiles. -/
def usersOf (ps : List Profile) : Collection := ps.foldr (fun p c => c.setData p.uid p.document) ∅

/-- The accounts and documents of some profiles, and nothing else. -/
def start (ps : List Profile) : System ι where
  clients _ := {}
  accounts := ps.map fun p => ⟨p.email, p.password, p.uid⟩
  store
    | .users => usersOf ps
    | _ => ∅
  objects _ := none

theorem lookup_usersOf (ps : List Profile) (u : String) :
    (∀ d, (usersOf ps).lookup u = some d → ∃ p ∈ ps, p.uid = u ∧ d = p.document) ∧
      ((∃ p ∈ ps, p.uid = u) → ∃ d, (usersOf ps).lookup u = some d) := by
  induction ps with
  | nil => simp [usersOf]
  | cons p ps ih =>
    have hl : (usersOf (p :: ps)).lookup u =
        if u = p.uid then some p.document else (usersOf ps).lookup u :=
      Collection.lookup_setData (usersOf ps) p.uid u p.document
    rw [hl]
    split_ifs with hu
    · refine ⟨fun d hd => ⟨p, List.mem_cons_self, hu.symm, (Option.some.inj hd).symm⟩,
        fun _ => ⟨_, rfl⟩⟩
    · refine ⟨fun d hd => ?_, fun ⟨q, hq, hqu⟩ => ih.2 ?_⟩
      · obtain ⟨q, hq, h⟩ := ih.1 d hd
        exact ⟨q, List.mem_cons_of_mem p hq, h⟩
      · rcases List.mem_cons.1 hq with rfl | hq
        · exact absurd hqu.symm hu
        · exact ⟨q, hq, hqu⟩

/-- **Every list of profiles is a start.** -/
theorem initial_start (ps : List Profile) : (start ps : System ι).Initial where
  clients _ := rfl
  posts := rfl
  comments := rfl
  users u d hd := by
    obtain ⟨p, -, rfl, rfl⟩ := (lookup_usersOf ps u).1 d hd
    exact ⟨p.name, p.bio, p.mod, rfl⟩
  account_iff u := by
    have hl := lookup_usersOf ps u
    constructor
    · rintro ⟨a, ha, rfl⟩
      obtain ⟨p, hp, rfl⟩ := List.mem_map.1 ha
      exact hl.2 ⟨p, hp, rfl⟩
    · rintro ⟨d, hd⟩
      obtain ⟨p, hp, rfl, -⟩ := hl.1 d hd
      exact ⟨_, List.mem_map_of_mem hp, rfl⟩
  objects _ := rfl
  net := rfl
  uuids := rfl
  entries := rfl

theorem reachable_start [DecidableEq ι] {C : System ι → Event ι → Prop} (ps : List Profile) :
    (machine ι).Via C (start ps) :=
  .init (initial_start ps)

end System

/-! ## What the user does -/

section Scripts

variable {ι : Type} (c : ι) (i k : ℕ)

/-- A launch and a log-in on the first screens of device `c`; the log-in is call `i`. -/
def logInEvents (email password : String) : List (Event ι) :=
  [.launch c, .act c 0 .logInButton {}, .act c 1 (.type .emailTextField email) {},
   .act c 1 (.type .passwordTextField password) {}, .act c 1 .logInPressed {}, .serve i .success,
   .deliver i 0]

/-- A launch and a press of the sign-up button on the first screens of device `c`, with the fields
filled in. -/
def signUpEvents (name email password : String) : List (Event ι) :=
  [.launch c, .act c 0 .signUpButton {}, .act c 1 (.type .nameTextField name) {},
   .act c 1 (.type .emailTextField email) {}, .act c 1 (.type .passwordTextField password) {},
   .act c 1 .signUpPressed {}]

/-- An upload of a titled post on screen `k`; the read of the user document is call `i`, the write
the next. -/
def uploadEvents (uuid title : String) (date : ℕ) : List (Event ι) :=
  [.act c k (.type .titleTextField title) {}, .act c k (.categoryPressed .artButton) {},
   .act c k .uploadPressed { uuid := uuid }, .serve i .success, .deliver i date,
   .serve (i + 1) .success]

/-- Call `i` is served with success and its answer delivered. -/
def answerEvents : List (Event ι) := [.serve i .success, .deliver i 0]

/-- The log-out of a user from home screen `k`; the read of the user document is call `i`. -/
def logOutEvents : List (Event ι) :=
  [.act c k .tappedMenu {}, .serve i .success, .deliver i 0, .act c k (.didSelectMenuRow 5) {}]

/-- A moderator opens the moderation screen for posts from home screen `k`, the device's newest
screen; the read of the user document is call `i`, the query the next. -/
def moderateEvents : List (Event ι) :=
  [.act c k .tappedMenu {}, .serve i .success, .deliver i 0, .act c k (.didSelectMenuRow 5) {},
   .act c (k + 1) .moderationPostsButton {}, .serve (i + 1) .success, .deliver (i + 1) 0]

end Scripts

/-- Two users. -/
def annAndBob : List Profile :=
  [⟨"ann@cis.edu.hk", "pass", "ann", "Ann", "", false⟩,
    ⟨"bob@cis.edu.hk", "pass", "bob", "Bob", "", false⟩]

/-- Ann's log-in is followed by Bob's, call 1, before it is answered. -/
def overlapEvents : List (Event Unit) :=
  [.launch (), .act () 0 .logInButton {}, .act () 1 (.type .emailTextField "ann@cis.edu.hk") {},
   .act () 1 (.type .passwordTextField "pass") {}, .act () 1 .logInPressed {},
   .act () 1 (.type .emailTextField "bob@cis.edu.hk") {}, .act () 1 .logInPressed {}] ++
  answerEvents 0

/-- A user and two moderators. -/
def annMoAndMax : List Profile :=
  [⟨"ann@cis.edu.hk", "pass", "ann", "Ann", "", false⟩,
   ⟨"mo@cis.edu.hk", "pass", "mo", "Mo", "", true⟩,
   ⟨"max@cis.edu.hk", "pass", "max", "Max", "", true⟩]

/-- Ann logs in on device 0 and uploads a post, in four calls; Mo opens the moderation screen on
device 1, in another four. -/
def pendingPostEvents : List (Event ℕ) :=
  logInEvents 0 0 "ann@cis.edu.hk" "pass" ++ [.act 0 2 .uploadTab {}] ++
  uploadEvents 0 2 4 "post" "Sketch" 7 ++
  logInEvents 1 4 "mo@cis.edu.hk" "pass" ++ moderateEvents 1 6 3

end ArtsExplorer
