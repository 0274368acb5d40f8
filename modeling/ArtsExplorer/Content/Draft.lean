import ArtsExplorer.Foundations.Machine
import ArtsExplorer.App.UploadViewController

/-!
# One upload screen and its closures

`UploadScreen` is an upload screen on its own: the controller, the reads of the user document that
have not been answered, and the documents it has written. With every read goes the draft that was on
the screen when the button was pressed; the closure itself has captured the texts and the media id,
but takes the categories that are selected when the answer arrives.

So what is written is the draft that was validated if and only if the selection is again, or still,
that of the press (`draft_exact_iff`).
-/

namespace ArtsExplorer

open Foundations

/-! ## Drafts -/

/-- What the upload screen holds, as `uploadPressed` looks at it. -/
structure Draft where
  titleText : String
  descriptionText : String
  hasMedia : Bool
  chosenCategories : List String
  /-- The category buttons that are selected. -/
  isSelected : CategoryButton → Bool

/-- The draft on the screen. -/
def UploadViewController.draft (s : UploadViewController) : Draft where
  titleText := trimmed s.titleTextField
  descriptionText := trimmed s.descriptionTextView
  hasMedia := s.hasMedia
  chosenCategories := s.picker.chosenCategories
  isSelected b := (s.picker.buttons b).isSelected

namespace Draft

variable (draft : Draft)

/-- The media id of the post. -/
def mediaID (postUUID : String) : String := if draft.hasMedia then postUUID else ""

/-- What `validateFields` has made sure of, and that the categories are those of the buttons. -/
structure Valid : Prop where
  content : draft.titleText ≠ "" ∨ draft.descriptionText ≠ "" ∨ draft.hasMedia = true
  chosen : draft.chosenCategories ≠ []
  selected : ∀ x, x ∈ draft.chosenCategories ↔ ∃ b, draft.isSelected b = true ∧
    lowercased b.title = x

/-- The closure has captured the draft. -/
def Captured (k : Callback) : Prop :=
  ∃ postUUID opID, k = .uploadUser postUUID opID (draft.mediaID postUUID) draft.titleText
    draft.descriptionText

/-- The write stores the draft. -/
def Stores (r : Request) : Prop :=
  ∃ postUUID opID opName date, r = .setData .posts postUUID (postDocument postUUID opID opName
    draft.chosenCategories (draft.mediaID postUUID) draft.titleText draft.descriptionText date)
      .uploadSet

end Draft

/-! ## The screen -/

structure UploadScreen where
  screen : UploadViewController := .viewDidLoad
  /-- The reads that have not been answered: the draft at the press and the closure. -/
  reads : List (Draft × Callback) := []
  /-- The writes: the draft at the press and the call. -/
  writes : List (Draft × Request) := []
  /-- The number of writes that have not completed. -/
  pending : ℕ := 0
  fault : Option Fault := none

inductive UploadEvent
  | titleChanged (text : String)
  | descriptionChanged (text : String)
  | categoryPressed (b : CategoryButton)
  | didFinishPicking (n : ℕ)
  | pressedClearMedia
  | uploadPressed (env : Env)
  /-- The `i`-th of the reads is answered. -/
  | replied (i : ℕ) (document : Option Document) (date : ℕ)
  /-- A write completes. -/
  | completed (error : Option String)
  /-- A `putData` completes. -/
  | imagePut (error : Option String)

/-- The closure of a read. -/
def Effect.userRead : Effect → Option Callback
  | .request (.getDocument _ _ k) => some k
  | _ => none

def Effect.documentWrite : Effect → Option Request
  | .request (.setData n id fields k) => some (.setData n id fields k)
  | _ => none

namespace UploadScreen

variable (s : UploadScreen)

/-- The screen after a handler whose calls belong to a press with `draft`. -/
def after (draft : Draft) : Except Fault (After UploadViewController) → UploadScreen
  | .error f => { s with fault := some f }
  | .ok (screen, es) =>
    { s with screen := screen, reads := s.reads ++ (es.filterMap Effect.userRead).map (draft, ·),
             writes := s.writes ++ (es.filterMap Effect.documentWrite).map (draft, ·),
             pending := s.pending + (es.filterMap Effect.documentWrite).length }

/-- The controller changes. -/
def change (screen : UploadViewController) : UploadScreen := { s with screen := screen }

/-- The step of a screen whose process runs. -/
def stepRunning : UploadEvent → Option UploadScreen
  | .titleChanged text => some (s.change { s.screen with titleTextField := text })
  | .descriptionChanged text => some (s.change { s.screen with descriptionTextView := text })
  | .categoryPressed b => some (s.change (s.screen.categoryPressed b))
  | .didFinishPicking n => some (s.change (s.screen.didFinishPicking (.picked n)))
  | .pressedClearMedia => some (s.change s.screen.pressedClearMedia)
  | .uploadPressed env => some (s.after s.screen.draft (s.screen.uploadPressed env))
  | .replied i document date =>
    match s.reads[i]? with
    | some (draft, .uploadUser postUUID opID mediaID titleText descriptionText) =>
      some ({ s with reads := s.reads.eraseIdx i }.after draft
        (s.screen.userReply { date := date } postUUID opID mediaID titleText descriptionText
          document))
    | _ => none
  | .completed error =>
    if 0 < s.pending then
      some ({ s with pending := s.pending - 1 }.change (s.screen.setReply error).1)
    else none
  | .imagePut error => some (s.change (s.screen.putReply error).1)

def step (e : UploadEvent) : Option UploadScreen := if s.fault = none then s.stepRunning e else none

/-- The upload screen as a machine. -/
def machine : Machine UploadScreen UploadEvent where
  Initial s := s = {}
  step := step

/-! ## The law -/

/-- Every document that was written is the draft that was on the screen at the press. -/
def Exact : Prop := ∀ x ∈ s.writes, x.1.Stores x.2

/-- If the event answers a read with a document that has a name, the selection is that of the
press. -/
def SelectionHolds (e : UploadEvent) : Prop :=
  ∀ i document name date draft k, e = .replied i (some document) date →
    document "name" = some (.string name) → s.reads[i]? = some (draft, k) →
      s.screen.picker.chosenCategories = draft.chosenCategories

/-! ## The invariant -/

structure Inv : Prop where
  picker : s.screen.picker.Consistent lowercased CategoryButton.title
  reads : ∀ x ∈ s.reads, x.1.Valid ∧ x.1.Captured x.2
  writes : ∀ x ∈ s.writes, x.1.Valid

variable {s} {s' : UploadScreen} {e : UploadEvent}

/-- A draft that passes `validateFields`. -/
theorem valid_of_validateFields {c : UploadViewController}
    (hp : c.picker.Consistent lowercased CategoryButton.title) (h : c.validateFields = none) :
    c.draft.Valid := by
  simp only [UploadViewController.validateFields] at h
  split_ifs at h with hempty hchosen
  refine ⟨?_, fun hnil => hchosen (by simpa [UploadViewController.draft] using hnil), hp.mem_iff⟩
  by_contra hno
  push Not at hno
  exact hempty ⟨hno.1, hno.2.1, by simpa [UploadViewController.draft, UploadViewController.hasMedia]
    using hno.2.2⟩

/-- A press, where it goes through: the closure of its read captures the draft. -/
theorem uploadPressed_spec {c : UploadViewController} {env : Env} {a : After UploadViewController}
    (h : c.uploadPressed env = .ok a) :
    a.1 = c ∧ a.2.filterMap Effect.documentWrite = [] ∧
      ∀ k ∈ a.2.filterMap Effect.userRead, c.validateFields = none ∧ c.draft.Captured k := by
  unfold UploadViewController.uploadPressed at h
  split at h
  · cases h
    exact ⟨rfl, rfl, by simp [Effect.userRead]⟩
  · next hvalid =>
    simp only [bind_eq_ok, Env.uid_eq_ok, pure_eq_ok] at h
    obtain ⟨u, -, rfl⟩ := h
    have hmedia : ∀ e ∈ (if c.hasMedia then c.uploadImage env env.uuid else []),
        e.userRead = none ∧ e.documentWrite = none := by
      intro e he
      split_ifs at he
      · obtain ⟨image, -, -, rfl⟩ := UploadViewController.mem_uploadImage he
        exact ⟨rfl, rfl⟩
      · cases he
    refine ⟨rfl, ?_, fun k hk => ⟨hvalid, ?_⟩⟩
    · rw [List.filterMap_append, List.filterMap_eq_nil_iff.2 fun e he => (hmedia e he).2]
      rfl
    · rw [List.filterMap_append, List.filterMap_eq_nil_iff.2 fun e he => (hmedia e he).1] at hk
      rw [List.mem_singleton.1 hk]
      exact ⟨_, u, rfl⟩

/-- An answer, where it goes through: the write takes the categories that are selected now. -/
theorem userReply_spec {c : UploadViewController} {env : Env} {a : After UploadViewController}
    {postUUID opID mediaID titleText descriptionText : String} {document : Option Document}
    (h : c.userReply env postUUID opID mediaID titleText descriptionText document = .ok a) :
    a.1 = c ∧ a.2.filterMap Effect.userRead = [] ∧
      (a.2.filterMap Effect.documentWrite = [] ∧ document = none ∨
        ∃ d opName, document = some d ∧ d "name" = some (.string opName) ∧
          a.2.filterMap Effect.documentWrite = [.setData .posts postUUID (postDocument postUUID opID
            opName c.picker.chosenCategories mediaID titleText descriptionText env.date)
              .uploadSet]) := by
  cases document with
  | none =>
    cases h
    exact ⟨rfl, rfl, .inl ⟨rfl, rfl⟩⟩
  | some d =>
    simp only [UploadViewController.userReply, bind_eq_ok, getString_eq_ok, pure_eq_ok] at h
    obtain ⟨opName, hname, rfl⟩ := h
    exact ⟨rfl, rfl, .inr ⟨d, opName, rfl, hname, rfl⟩⟩

/-! ## Steps -/

/-- A change of the controller writes nothing. -/
theorem change_exact_iff {c : UploadViewController}
    (hne : ∀ i document date, e ≠ .replied i document date) :
    (s.change c).Exact ↔ s.Exact ∧ s.SelectionHolds e :=
  ⟨fun h => ⟨h, fun i _ _ date _ _ he => absurd he (hne i _ date)⟩, fun h => h.1⟩

/-- A write stores the draft that its closure has captured if and only if it takes the categories of
the draft. -/
theorem stores_iff {draft : Draft} {postUUID opID mediaID titleText descriptionText opName : String}
    {chosenCategories : List String} {date : ℕ}
    (hk : draft.Captured (.uploadUser postUUID opID mediaID titleText descriptionText)) :
    draft.Stores (.setData .posts postUUID
      (postDocument postUUID opID opName chosenCategories mediaID
      titleText descriptionText date) .uploadSet) ↔ chosenCategories = draft.chosenCategories := by
  obtain ⟨_, _, hk⟩ := hk
  cases hk
  constructor
  · rintro ⟨_, _, _, _, hr⟩
    simp only [Request.setData.injEq, postDocument, List.cons.injEq, Prod.mk.injEq,
      Value.array.injEq] at hr
    tauto
  · rintro rfl
    exact ⟨_, _, opName, date, rfl⟩

/-- What the answer of a read leads to. -/
theorem replied_cases {i date : ℕ} {document : Option Document}
    (hs : s.stepRunning (.replied i document date) = some s') :
    ∃ draft postUUID opID mediaID titleText descriptionText,
      s.reads[i]? = some (draft, .uploadUser postUUID opID mediaID titleText descriptionText) ∧
      s' = { s with reads := s.reads.eraseIdx i }.after draft
        (s.screen.userReply { date := date } postUUID opID mediaID titleText descriptionText
          document) := by
  simp only [stepRunning] at hs
  split at hs
  · next draft postUUID opID mediaID titleText descriptionText hi =>
    cases hs
    exact ⟨draft, postUUID, opID, mediaID, titleText, descriptionText, hi, rfl⟩
  · cases hs

theorem replied_exact_iff (h : s.Inv) {i date : ℕ} {document : Option Document}
    (hs : s.stepRunning (.replied i document date) = some s') :
    s'.Exact ↔ s.Exact ∧ s.SelectionHolds (.replied i document date) := by
  obtain ⟨draft, postUUID, opID, mediaID, titleText, descriptionText, hi, rfl⟩ := replied_cases hs
  obtain ⟨-, hcaptured⟩ := h.reads _ (List.mem_of_getElem? hi)
  have hholds : s.SelectionHolds (.replied i document date) ↔
      ∀ d name, document = some d → d "name" = some (.string name) →
        s.screen.picker.chosenCategories = draft.chosenCategories := by
    constructor
    · rintro hsel d name rfl hname
      exact hsel i d name date draft _ rfl hname hi
    · intro hsel j d name date' draft' k' he hname hj
      cases he
      cases hi.symm.trans hj
      exact hsel d name rfl hname
  rw [hholds]
  cases hr : s.screen.userReply { date := date } postUUID opID mediaID titleText descriptionText
      document with
  | error f =>
    refine ⟨fun hx => ⟨hx, ?_⟩, fun hx => hx.1⟩
    rintro d name rfl hname
    simp [UploadViewController.userReply, getString_eq_ok.2 hname, bind, Except.bind, pure,
      Except.pure] at hr
  | ok a =>
    obtain ⟨-, -, ⟨hw, rfl⟩ | ⟨d, opName, rfl, hname, hw⟩⟩ := userReply_spec hr
    · refine ⟨fun hx => ⟨by simpa [after, Exact, hw] using hx, by simp⟩, fun hx => ?_⟩
      simpa [after, Exact, hw] using hx.1
    · have hstores := @stores_iff draft postUUID opID mediaID titleText descriptionText opName
        s.screen.picker.chosenCategories date hcaptured
      simp only [after, Exact, hw, List.map_cons, List.map_nil, List.mem_append, List.mem_singleton,
        or_imp, forall_and, forall_eq, hstores]
      refine and_congr_right fun _ =>
        ⟨fun hsel _ _ _ _ => hsel, fun hsel => hsel d opName rfl hname⟩

/-- **A step writes the draft of the press** if and only if the selection is that of the press. -/
theorem step_exact_iff (h : s.Inv) (hs : s.step e = some s') :
    s'.Exact ↔ s.Exact ∧ s.SelectionHolds e := by
  unfold step at hs
  split_ifs at hs
  cases e with
  | uploadPressed env =>
    cases hs
    have hholds : s.SelectionHolds (.uploadPressed env) := fun _ _ _ _ _ _ he => by cases he
    cases hr : s.screen.uploadPressed env with
    | error f => exact ⟨fun hx => ⟨hx, hholds⟩, fun hx => hx.1⟩
    | ok a =>
      obtain ⟨-, hw, -⟩ := uploadPressed_spec hr
      simp only [after, Exact, hw, List.map_nil, List.append_nil]
      exact ⟨fun hx => ⟨hx, hholds⟩, fun hx => hx.1⟩
  | replied i document date => exact replied_exact_iff h hs
  | completed error =>
    simp only [stepRunning] at hs
    split_ifs at hs
    cases hs
    exact change_exact_iff (by simp)
  | _ =>
    cases hs
    exact change_exact_iff (by simp)

theorem Inv.change (h : s.Inv) {c : UploadViewController}
    (hc : c.picker.Consistent lowercased CategoryButton.title) : (s.change c).Inv :=
  ⟨hc, h.reads, h.writes⟩

theorem step_inv (h : s.Inv) (hs : s.step e = some s') : s'.Inv := by
  unfold step at hs
  split_ifs at hs
  cases e with
  | categoryPressed b =>
    cases hs
    exact h.change (h.picker.changeButton (fun _ _ => CategoryButton.eq_of_title) b)
  | uploadPressed env =>
    cases hs
    cases hr : s.screen.uploadPressed env with
    | error f => exact ⟨h.picker, h.reads, h.writes⟩
    | ok a =>
      obtain ⟨ha, hw, hk⟩ := uploadPressed_spec hr
      refine ⟨ha ▸ h.picker, fun x hx => ?_, fun x hx => h.writes x (by simpa [after, hw] using hx)⟩
      rcases List.mem_append.1 hx with hx | hx
      · exact h.reads x hx
      · obtain ⟨k, hmem, rfl⟩ := List.mem_map.1 hx
        obtain ⟨hvalid, hcaptured⟩ := hk k hmem
        exact ⟨valid_of_validateFields h.picker hvalid, hcaptured⟩
  | replied i document date =>
    obtain ⟨draft, postUUID, opID, mediaID, titleText, descriptionText, hi, rfl⟩ := replied_cases hs
    have hvalid := (h.reads _ (List.mem_of_getElem? hi)).1
    have hrest : ∀ x ∈ s.reads.eraseIdx i, x.1.Valid ∧ x.1.Captured x.2 := fun x hx =>
      h.reads x (List.mem_of_mem_eraseIdx hx)
    cases hr : s.screen.userReply { date := date } postUUID opID mediaID titleText descriptionText
        document with
    | error f => exact ⟨h.picker, hrest, h.writes⟩
    | ok a =>
      obtain ⟨ha, hreads, -⟩ := userReply_spec hr
      refine ⟨ha ▸ h.picker, fun x hx => hrest x (by simpa [after, hreads] using hx),
        fun x hx => ?_⟩
      rcases List.mem_append.1 hx with hx | hx
      · exact h.writes x hx
      · obtain ⟨r, -, rfl⟩ := List.mem_map.1 hx
        exact hvalid
  | completed error =>
    simp only [stepRunning] at hs
    split_ifs at hs
    cases hs
    cases error with
    | none => exact ⟨h.picker.clear, h.reads, h.writes⟩
    | some err => exact ⟨h.picker, h.reads, h.writes⟩
  | imagePut error =>
    cases hs
    cases error <;> exact h
  | _ =>
    cases hs
    exact h.change h.picker

/-! ## Runs -/

theorem initial_inv : ({} : UploadScreen).Inv := by
  refine ⟨⟨fun _ => rfl, fun x => ?_⟩, by simp, by simp⟩
  simp [UploadViewController.viewDidLoad]

theorem reachable_inv (h : machine.Reachable s) : s.Inv :=
  h.induct (fun _ h => h ▸ initial_inv) fun _ _ _ _ hi _ hs => step_inv hi hs

/-- **What is stored is the draft that was validated**, in a run, if and only if the selection is
that of the press whenever a read is answered; and that draft always has a category, and exactly the
categories of the selected buttons. -/
theorem draft_exact_iff (es : List UploadEvent) (s : UploadScreen) :
    (machine.Steps (fun _ _ => True) {} es s ∧ s.Exact ↔ machine.Steps SelectionHolds {} es s) ∧
      (machine.Steps (fun _ _ => True) {} es s → ∀ x ∈ s.writes, x.1.Valid) := by
  refine ⟨?_, fun hrun => (reachable_inv (hrun.reachable (.init rfl))).writes⟩
  exact Machine.steps_and_iff (.init rfl) (by simp [Exact]) fun _ _ _ hr hs =>
    step_exact_iff (reachable_inv hr) hs

/-! ## A changed selection -/

/-- A post on art is uploaded, and the category turned off before the user document has been
read. -/
def deselected : List UploadEvent :=
  [.titleChanged "Sketch", .categoryPressed .artButton,
   .uploadPressed { currentUser := some "ann", uuid := "post" }, .categoryPressed .artButton,
   .replied 0 (some (.ofFields (userDocument "ann" "Ann"))) 7]

/-- The categories of a write. -/
def categories : Request → Option Value
  | .setData _ _ fields _ => fields.lookup "categories"
  | _ => none

/-- Some post is written without the categories of its draft. -/
def losesCategories (s : UploadScreen) : Bool :=
  s.writes.any fun x => categories x.2 = some (.array []) && x.1.chosenCategories = ["art"]

/-- **A post without categories is stored**: not every reachable screen has written drafts only. -/
theorem draft_deselected : ∃ s, machine.Reachable s ∧ ¬ s.Exact := by
  obtain ⟨s, hs, hp⟩ := machine.exists_of_run {} deselected losesCategories (by decide +kernel)
  refine ⟨s, hs.reachable (.init rfl), fun hexact => ?_⟩
  obtain ⟨x, hx, hcat⟩ := List.any_eq_true.1 hp
  simp only [Bool.and_eq_true, decide_eq_true_eq] at hcat
  obtain ⟨postUUID, opID, opName, date, hr⟩ := hexact x hx
  have hall : categories x.2 = some (.array x.1.chosenCategories) := by
    rw [hr]
    rfl
  rw [hcat.1, hcat.2] at hall
  simp at hall

end UploadScreen

end ArtsExplorer
