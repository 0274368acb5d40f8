import ArtsExplorer.Foundations.Machine
import Mathlib.Data.List.Induction
import Mathlib.Data.Set.Insert

/-!
# A directory of members

What a directory of members is for. A member enrols once and stays. It has a profile, whose fields
are edited one by one, it is a moderator or not, and it keeps a set of things. Each of these is a
register of its own (`Register`): it holds what the last act that writes it has written, whatever
the acts on other registers and other members are (`Directory.last_write`).
-/

namespace Foundations

/-- A member with profile fields `φ`, which keeps some of the things `χ`. -/
@[ext]
structure Member (φ ν χ : Type*) where
  profile : φ → ν
  moderates : Prop
  kept : Set χ

inductive DirectoryAct (κ φ ν χ : Type*)
  | enrol (k : κ) (profile : φ → ν)
  | edit (k : κ) (changes : List (φ × ν))
  | appoint (k : κ) (moderates : Bool)
  | keep (k : κ) (x : χ)
  | drop (k : κ) (x : χ)

section

variable {κ φ ν χ : Type*}

/-- The member an act concerns. -/
def DirectoryAct.key : DirectoryAct κ φ ν χ → κ
  | .enrol k _ | .edit k _ | .appoint k _ | .keep k _ | .drop k _ => k

/-- Whether an act is an enrolment. -/
def DirectoryAct.enrols : DirectoryAct κ φ ν χ → Bool
  | .enrol _ _ => true
  | _ => false

variable [DecidableEq φ]

/-- The profile after some changes, in order. -/
def amend (profile : φ → ν) (changes : List (φ × ν)) : φ → ν :=
  changes.foldl (fun p c => Function.update p c.1 c.2) profile

/-- What an act makes of its member. An enrolment needs a new member, the other acts need one that
has enrolled. -/
def Member.after : Option (Member φ ν χ) → DirectoryAct κ φ ν χ → Option (Member φ ν χ)
  | none, .enrol _ profile => some ⟨profile, False, ∅⟩
  | some m, .edit _ changes => some { m with profile := amend m.profile changes }
  | some m, .appoint _ b => some { m with moderates := b = true }
  | some m, .keep _ x => some { m with kept := insert x m.kept }
  | some m, .drop _ x => some { m with kept := m.kept \ {x} }
  | _, _ => none

end

/-- A directory: the members under their keys. -/
abbrev Directory (κ φ ν χ : Type*) := κ → Option (Member φ ν χ)

def Directory.step {κ φ ν χ : Type*} [DecidableEq κ] [DecidableEq φ] (d : Directory κ φ ν χ)
    (act : DirectoryAct κ φ ν χ) : Option (Directory κ φ ν χ) :=
  (Member.after (d act.key) act).map fun m => Function.update d act.key (some m)

/-- The directory as a machine. Its first members keep nothing. -/
def directory (κ φ ν χ : Type*) [DecidableEq κ] [DecidableEq φ] :
    Machine (Directory κ φ ν χ) (DirectoryAct κ φ ν χ) where
  Initial d := ∀ k m, d k = some m → m.kept = ∅
  step := Directory.step

/-- Something to be read of a member, with what an act writes to it. -/
structure Register (κ φ ν χ β : Type*) [DecidableEq φ] where
  read : Member φ ν χ → β
  write : DirectoryAct κ φ ν χ → Option β
  read_after : ∀ {o act m}, Member.after o act = some m →
    some (read m) = (write act).or (o.map read)

namespace Register

variable {κ φ ν χ : Type*} [DecidableEq φ]

/-- The last of the changes of a field counts. -/
theorem amend_apply (profile : φ → ν) (changes : List (φ × ν)) (f : φ) :
    amend profile changes f =
      ((changes.filter fun c => c.1 = f).map Prod.snd).getLast?.getD (profile f) := by
  induction changes using List.reverseRecOn with
  | nil => rfl
  | append_singleton changes c ih =>
    have hsnoc : amend profile (changes ++ [c]) =
        Function.update (amend profile changes) c.1 c.2 := List.foldl_append
    rw [hsnoc, Function.update_apply, List.filter_append, List.map_append, List.getLast?_append]
    by_cases hc : c.1 = f
    · simp [hc]
    · simpa [hc, Ne.symm hc] using ih

/-- A field of the profile. -/
def profile (f : φ) : Register κ φ ν χ ν where
  read m := m.profile f
  write
    | .enrol _ p => some (p f)
    | .edit _ changes => ((changes.filter fun c => c.1 = f).map Prod.snd).getLast?
    | _ => none
  read_after {o act m} h := by
    cases o <;> cases act <;> cases h
    case some.edit m k changes =>
      dsimp only
      rw [amend_apply]
      cases ((changes.filter fun c => c.1 = f).map Prod.snd).getLast? <;> rfl
    all_goals rfl

/-- Whether the member is a moderator. -/
def moderates : Register κ φ ν χ Prop where
  read m := m.moderates
  write
    | .enrol _ _ => some False
    | .appoint _ b => some (b = true)
    | _ => none
  read_after {o act m} h := by cases o <;> cases act <;> cases h <;> rfl

/-- Whether the member keeps `x`. -/
def keeps [DecidableEq χ] (x : χ) : Register κ φ ν χ Prop where
  read m := x ∈ m.kept
  write
    | .enrol _ _ => some False
    | .keep _ y => if y = x then some True else none
    | .drop _ y => if y = x then some False else none
    | _ => none
  read_after {o act m} h := by
    cases o <;> cases act <;> cases h
    case some.keep m k y =>
      dsimp only
      split_ifs with hy
      · simp [hy]
      · simp [Ne.symm hy]
    case some.drop m k y =>
      dsimp only
      split_ifs with hy
      · simp [hy]
      · simp [Ne.symm hy]
    all_goals rfl

end Register

namespace Directory

variable {κ φ ν χ β : Type*} [DecidableEq κ] [DecidableEq φ] {d d' : Directory κ φ ν χ}

/-- The last of the acts on member `k` that writes register `R`: what it writes. -/
def lastWrite (R : Register κ φ ν χ β) (k : κ) (acts : List (DirectoryAct κ φ ν χ)) : Option β :=
  ((acts.filter fun a => a.key = k).filterMap R.write).getLast?

theorem lastWrite_append (R : Register κ φ ν χ β) (k : κ) (acts new : List (DirectoryAct κ φ ν χ)) :
    lastWrite R k (acts ++ new) = (lastWrite R k new).or (lastWrite R k acts) := by
  rw [lastWrite, List.filter_append, List.filterMap_append, List.getLast?_append]
  rfl

theorem lastWrite_singleton (R : Register κ φ ν χ β) (k : κ) (act : DirectoryAct κ φ ν χ) :
    lastWrite R k [act] = if act.key = k then R.write act else none := by
  by_cases hk : act.key = k
  · cases hw : R.write act <;> simp [lastWrite, hk, hw]
  · simp [lastWrite, hk]

/-- **What an act does**: it amends its member, and leaves the others. -/
theorem step_eq_some {act : DirectoryAct κ φ ν χ} : d.step act = some d' ↔
    (∃ m, Member.after (d act.key) act = some m ∧ d' act.key = some m) ∧
      ∀ k, k ≠ act.key → d' k = d k := by
  simp only [step, Option.map_eq_some_iff]
  constructor
  · rintro ⟨m, hm, rfl⟩
    exact ⟨⟨m, hm, Function.update_self _ _ _⟩, fun k hk => Function.update_of_ne hk _ _⟩
  · rintro ⟨⟨m, hm, hkey⟩, hothers⟩
    refine ⟨m, hm, funext fun k => ?_⟩
    rw [Function.update_apply]
    split_ifs with hk
    · rw [hk, hkey]
    · exact (hothers k hk).symm

variable {C : Directory κ φ ν χ → DirectoryAct κ φ ν χ → Prop} {acts : List (DirectoryAct κ φ ν χ)}

/-- **The last write counts**: a register of a member holds what the last act that writes it has
written, or what it held at first. -/
theorem last_write (R : Register κ φ ν χ β) (h : (directory κ φ ν χ).Steps C d acts d') (k : κ) :
    (d' k).map R.read = (lastWrite R k acts).or ((d k).map R.read) := by
  induction h with
  | nil => rfl
  | @snoc t u acts act _ _ hs ih =>
    obtain ⟨⟨m, hm, hkey⟩, hothers⟩ := step_eq_some.1 hs
    rw [lastWrite_append, lastWrite_singleton, Option.or_assoc, ← ih]
    split_ifs with hk
    · rw [← hk, hkey, Option.map_some, R.read_after hm]
    · rw [hothers k (Ne.symm hk), Option.none_or]

/-- **A member enrols once**, and stays. -/
theorem enrolled_once (h : (directory κ φ ν χ).Steps C d acts d') (k : κ) :
    (d k).toList.length + (acts.filter fun a => a.key = k).countP DirectoryAct.enrols =
      (d' k).toList.length := by
  induction h with
  | nil => rfl
  | @snoc t u acts act _ _ hs ih =>
    obtain ⟨⟨m, hm, hkey⟩, hothers⟩ := step_eq_some.1 hs
    rw [List.filter_append, List.countP_append, ← Nat.add_assoc, ih]
    by_cases hk : act.key = k
    · subst hk
      rw [hkey]
      cases ho : t act.key <;> rw [ho] at hm <;> cases act <;> cases hm <;>
        simp [DirectoryAct.enrols]
    · rw [hothers k (Ne.symm hk)]
      simp [hk]

end Directory

end Foundations
