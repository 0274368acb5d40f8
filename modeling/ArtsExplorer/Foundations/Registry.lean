import ArtsExplorer.Foundations.Machine
import Mathlib.Data.List.Nodup

/-!
# A registry of accounts

What an account service is for. Accounts are created under a policy, with a new key (such as an
e-mail address) and a new id, and never removed; a device enters and leaves the session of an
account that exists. Accounts of a run are the first ones and new ones that all meet the policy
(`Registry.grows_of_steps`), the session of a device is always that of an account
(`Registry.SessionsValid.steps`), and it is decided by the last act of that device
(`Registry.session_eq`).
-/

namespace Foundations

/-- The accounts, and whose session each device is in. -/
structure Registry (δ α υ : Type*) where
  accounts : List α
  session : δ → Option υ

inductive RegistryAct (δ α υ : Type*)
  | create (a : α)
  | enter (d : δ) (u : υ)
  | leave (d : δ)

namespace Registry

variable {δ α υ κ : Type*} [DecidableEq δ]

/-- The accounts that an act adds. -/
def created : RegistryAct δ α υ → List α
  | .create a => [a]
  | _ => []

/-- The session of device `d` after an act, when it was `u` before. -/
def sessionAfter (d : δ) (u : Option υ) : RegistryAct δ α υ → Option υ
  | .create _ => u
  | .enter e v => if e = d then some v else u
  | .leave e => if e = d then none else u

/-- `key` and `id` of a new account must be new, and `policy` must allow it; a session must be that
of an account. -/
def Enabled (key : α → κ) (id : α → υ) (policy : α → Prop) (r : Registry δ α υ) :
    RegistryAct δ α υ → Prop
  | .create a => policy a ∧ ∀ b ∈ r.accounts, key b ≠ key a ∧ id b ≠ id a
  | .enter _ u => ∃ a ∈ r.accounts, id a = u
  | .leave _ => True

open Classical in
noncomputable def step (key : α → κ) (id : α → υ) (policy : α → Prop) (r : Registry δ α υ)
    (act : RegistryAct δ α υ) : Option (Registry δ α υ) :=
  if r.Enabled key id policy act then
    some ⟨r.accounts ++ created act, fun d => sessionAfter d (r.session d) act⟩
  else none

end Registry

/-- The registry as a machine. Nobody is in a session at first. -/
noncomputable def registry (δ : Type*) {α υ κ : Type*} [DecidableEq δ] (key : α → κ) (id : α → υ)
    (policy : α → Prop) : Machine (Registry δ α υ) (RegistryAct δ α υ) where
  Initial r := ∀ d, r.session d = none
  step := Registry.step key id policy

namespace Registry

variable {δ α υ κ : Type*} [DecidableEq δ] {key : α → κ} {id : α → υ} {policy : α → Prop}
  {r r' r'' : Registry δ α υ} {act : RegistryAct δ α υ}

theorem step_eq_some : r.step key id policy act = some r' ↔
    r.Enabled key id policy act ∧ r'.accounts = r.accounts ++ created act ∧
      ∀ d, r'.session d = sessionAfter d (r.session d) act := by
  unfold step
  split_ifs with hact
  · obtain ⟨accounts, session⟩ := r'
    simp only [Option.some.injEq, mk.injEq, funext_iff, hact, true_and, eq_comm]
  · simp [hact]

/-- `r'` has the accounts of `r` and new ones, which meet the policy and are told apart from each
other and from the old ones by `key` and by `id`. -/
def Grows (key : α → κ) (id : α → υ) (policy : α → Prop) (r r' : Registry δ α υ) : Prop :=
  ∃ new, r'.accounts = r.accounts ++ new ∧ (∀ a ∈ new, policy a) ∧ (new.map key).Nodup ∧
    (new.map id).Nodup ∧ ∀ a ∈ new, ∀ b ∈ r.accounts, key b ≠ key a ∧ id b ≠ id a

omit [DecidableEq δ] in
theorem Grows.refl (r : Registry δ α υ) : r.Grows key id policy r :=
  ⟨[], by simp⟩

theorem Grows.step (h : r.Grows key id policy r') (hs : r'.step key id policy act = some r'') :
    r.Grows key id policy r'' := by
  obtain ⟨new, hnew, hpolicy, hkey, hid, hold⟩ := h
  obtain ⟨hok, haccounts, -⟩ := step_eq_some.1 hs
  cases act with
  | create a =>
    -- the account is new with respect to the first ones and to those that have come since
    have hfirst : ∀ b ∈ r.accounts, key b ≠ key a ∧ id b ≠ id a := fun b hb =>
      hok.2 b (hnew ▸ List.mem_append_left _ hb)
    have hsince : ∀ b ∈ new, key b ≠ key a ∧ id b ≠ id a := fun b hb =>
      hok.2 b (hnew ▸ List.mem_append_right _ hb)
    refine ⟨new ++ [a], by rw [haccounts, hnew, List.append_assoc]; rfl, ?_, ?_, ?_, ?_⟩
    · simpa [or_imp, forall_and] using ⟨hpolicy, hok.1⟩
    · rw [List.map_append, List.map_singleton, List.nodup_append]
      exact ⟨hkey, List.nodup_singleton _, by simpa using fun b hb => (hsince b hb).1⟩
    · rw [List.map_append, List.map_singleton, List.nodup_append]
      exact ⟨hid, List.nodup_singleton _, by simpa using fun b hb => (hsince b hb).2⟩
    · intro b hb
      rcases List.mem_append.1 hb with hb | hb
      · exact hold b hb
      · rw [List.mem_singleton.1 hb]
        exact hfirst
  | enter d u => exact ⟨new, by simpa [created, hnew] using haccounts, hpolicy, hkey, hid, hold⟩
  | leave d => exact ⟨new, by simpa [created, hnew] using haccounts, hpolicy, hkey, hid, hold⟩

/-- A session is that of an account. -/
def SessionsValid (id : α → υ) (r : Registry δ α υ) : Prop :=
  ∀ d u, r.session d = some u → ∃ a ∈ r.accounts, id a = u

theorem SessionsValid.step (h : r.SessionsValid id) (hs : r.step key id policy act = some r') :
    r'.SessionsValid id := by
  obtain ⟨hok, haccounts, hsession⟩ := step_eq_some.1 hs
  intro d u hd
  rw [hsession] at hd
  have hold : (∃ a ∈ r.accounts, id a = u) → ∃ a ∈ r'.accounts, id a = u := fun ⟨a, ha, hu⟩ =>
    ⟨a, haccounts ▸ List.mem_append_left _ ha, hu⟩
  cases act with
  | create a => exact hold (h d u hd)
  | enter e v =>
    simp only [sessionAfter] at hd
    split_ifs at hd
    · cases hd
      exact hold hok
    · exact hold (h d u hd)
  | leave e =>
    simp only [sessionAfter] at hd
    split_ifs at hd
    exact hold (h d u hd)

variable {C : Registry δ α υ → RegistryAct δ α υ → Prop} {acts : List (RegistryAct δ α υ)}

/-- **The accounts of a run.** -/
theorem grows_of_steps (h : (registry δ key id policy).Steps C r acts r') :
    r.Grows key id policy r' := by
  induction h with
  | nil => exact .refl _
  | snoc _ _ hs ih => exact ih.step hs

/-- **The sessions of a run** are those of accounts. -/
theorem SessionsValid.steps (hr : r.SessionsValid id)
    (h : (registry δ key id policy).Steps C r acts r') : r'.SessionsValid id := by
  induction h with
  | nil => exact hr
  | snoc _ _ hs ih => exact ih.step hs

/-- **The session of a device** is decided by its own acts. -/
theorem session_eq (h : (registry δ key id policy).Steps C r acts r') (d : δ) :
    r'.session d = acts.foldl (sessionAfter d) (r.session d) := by
  induction h with
  | nil => rfl
  | snoc _ _ hs ih => rw [List.foldl_append, ← ih, (step_eq_some.1 hs).2.2 d]; rfl

end Registry

end Foundations
