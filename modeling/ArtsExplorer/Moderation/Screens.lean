import ArtsExplorer.Feeds.Snapshots
import ArtsExplorer.Foundations.Refinement
import ArtsExplorer.Moderation.Queue
import ArtsExplorer.System.Solo

/-!
# The moderation screens of the app

`QueueScreen` is a moderation screen with its calls as far as they matter to the list. The two
moderation screens of the app are that machine: `Queue.ShownBy` says how a controller of a queue
appears as a screen, `QueueScreen.ofSolo` reads the open deletes, the open queries and the decided
ids off the calls of a screen, and a run of the app is on each of its moderation screens a run of
the machine, with the buttons pressed there and the answers to its own calls
(`moderation_screens_of_run`). That the answers are those of a query of the store, which finds a
document once, is what the machine takes for granted.
-/

namespace ArtsExplorer

open Foundations

/-! ## A queue as a screen -/

namespace Queue

variable {α : Type} (m : Queue α)

/-- What a moderation screen does on an action. -/
def act (s : PendingList α) : Action → Option (Except Fault (After (PendingList α)))
  | .approve row => if row < s.rowCount then some (m.callBackOnApproveButton s row) else none
  | .deny row => if row < s.rowCount then some (m.callBackOnDenyButton s row) else none
  | .refresh => some (.ok (s, m.loadPending))
  | _ => none

/-- What the closures of a moderation screen do with a reply. -/
def receive (s : PendingList α) : Callback → Reply → Option (Except Fault (After (PendingList α)))
  | .pending, .documents r => some (m.loadPendingReply s r)
  | .denied row, .completion e => some (m.denyReply s row e)
  | _, _ => none

/-- The calls of a moderation screen. -/
inductive Calls : Request → Prop
  | load : Calls (.getDocuments m.collection m.pending .pending)
  | approve (id : String) : Calls (.updateData m.collection id [("approved", .value (.bool true))])
  | deny (id : String) (row : ℕ) : Calls (.delete m.collection id (.denied row))

/-- The screen as it is opened. -/
def opened (view : PendingList α → Screen) : SoloScreen where
  screen := view {}
  calls := unanswered m.loadPending

/-- The controller of the queue is the screen `view`. -/
structure ShownBy (view : PendingList α → Screen) : Prop where
  act : ∀ env a s, (view s).act env a = (m.act s a).map (lift view)
  receive : ∀ env k r s, (view s).receive env k r = (m.receive s k r).map (lift view)
  injective : Function.Injective view
  kind : ∀ s s', (view s).kind = (view s').kind
  opened : ∀ scr es, Screen.Opened scr es → scr.kind = (view {}).kind →
    scr = view {} ∧ es = m.loadPending

theorem shownBy_moderationPosts : moderationPost.ShownBy .moderationPosts where
  act env a s := by
    cases a <;> try rfl
    all_goals
      rw [Screen.act, Queue.act]
      split_ifs <;> rfl
  receive env k r s := by
    cases k <;> cases r <;> rfl
  injective _ _ h := by
    cases h
    rfl
  kind _ _ := rfl
  opened scr es hopened hkind := by
    cases hopened with
    | @loaded env d _ _ h =>
      have hd := (Screen.load_kind h).symm.trans hkind
      cases d <;> cases hd
      cases h
      exact ⟨rfl, rfl⟩
    | _ => cases hkind

theorem shownBy_moderationComments : moderationComment.ShownBy .moderationComments where
  act env a s := by
    cases a <;> try rfl
    all_goals
      rw [Screen.act, Queue.act]
      split_ifs <;> rfl
  receive env k r s := by
    cases k <;> cases r <;> rfl
  injective _ _ h := by
    cases h
    rfl
  kind _ _ := rfl
  opened scr es hopened hkind := by
    cases hopened with
    | @loaded env d _ _ h =>
      have hd := (Screen.load_kind h).symm.trans hkind
      cases d <;> cases hd
      cases h
      exact ⟨rfl, rfl⟩
    | _ => cases hkind

end Queue

/-! ## The machine of the screen -/

/-- The delete that a call is, as long as it has not been answered. -/
def openDenial : Request × Option Reply → Option (String × ℕ)
  | (.delete _ id (.denied row), none) => some (id, row)
  | _ => none

/-- The query that a call is, as long as it has not been answered. -/
def openLoad : Request × Option Reply → Option Unit
  | (.getDocuments _ _ .pending, none) => some ()
  | _ => none

/-- The id that a call decides on. -/
def decision : Request × Option Reply → Option String
  | (.delete _ id _, _) | (.updateData _ id _, _) => some id
  | _ => none

theorem filterMap_openDenial (es : List Effect) :
    (unanswered es).filterMap openDenial = denials es := by
  induction es with
  | nil => rfl
  | cons e es ih =>
    cases e <;> try exact ih
    case request r =>
      cases r <;> try exact ih
      case delete n id k =>
        cases k <;> first | exact ih | exact congrArg (List.cons _) ih

theorem filterMap_openLoad (es : List Effect) :
    ((unanswered es).filterMap openLoad).length = queries es := by
  induction es with
  | nil => rfl
  | cons e es ih =>
    cases e <;> try exact ih
    case request r =>
      cases r <;> try exact ih
      case getDocuments n q k =>
        cases k <;> first | exact ih | exact congrArg Nat.succ ih

theorem filterMap_decision (es : List Effect) :
    (unanswered es).filterMap decision = decisions es := by
  induction es with
  | nil => rfl
  | cons e es ih =>
    cases e <;> try exact ih
    case request r =>
      cases r <;> first | exact ih | exact congrArg (List.cons _) ih

namespace QueueScreen

variable {α : Type} (m : Queue α)

/-- What the machine knows of a screen that shows `list`. -/
def ofSolo (list : PendingList α) (x : SoloScreen) : QueueScreen α where
  list := list
  denies := x.calls.filterMap openDenial
  loads := (x.calls.filterMap openLoad).length
  decided := x.calls.filterMap decision
  fault := x.fault

/-- What an event of the screen is to the machine. -/
def eventOf (x : SoloScreen) : SoloScreen.Event → Option QueueEvent
  | .acted _ (.approve row) => some (.approve row)
  | .acted _ (.deny row) => some (.deny row)
  | .acted _ .refresh => some .refresh
  | .replied _ i (.documents r) =>
    ((x.calls[i]?).bind openLoad).map fun _ => .loaded r
  | .replied _ i (.completion error) =>
    ((x.calls[i]?).bind openDenial).map fun _ => .denied (place openDenial x.calls i) error
  | _ => none

variable {m} {view : PendingList α → Screen} {x y : SoloScreen} {list : PendingList α}

/-- The screen is one of the queue. -/
structure Shows (m : Queue α) (view : PendingList α → Screen) (list : PendingList α)
    (x : SoloScreen) : Prop where
  screen : x.screen = view list
  calls : ∀ call ∈ x.calls, m.Calls call.1

/-- What the queue takes for granted of the answers to its calls. -/
structure Answers (m : Queue α) (q : Request) (r : Reply) : Prop where
  takes : q.Takes r
  distinct : ∀ res, q = .getDocuments m.collection m.pending .pending → r = .documents res →
    Distinct m res

/-- A handler of the queue. -/
theorem ofSolo_after {res : Except Fault (After (PendingList α))} (h : Shows m view list x)
    (hcalls : ∀ l es, res = .ok (l, es) → ∀ q ∈ requests es, m.Calls q) :
    ∃ list', Shows m view list' (x.after (lift view res)) ∧
      (ofSolo list x).after res = ofSolo list' (x.after (lift view res)) := by
  cases res with
  | error f => exact ⟨list, ⟨h.screen, h.calls⟩, rfl⟩
  | ok r =>
    obtain ⟨l, es⟩ := r
    have hx : (x.after (lift view (.ok (l, es)))).calls = x.calls ++ unanswered es := rfl
    refine ⟨l, ⟨rfl, fun call hcall => ?_⟩, ?_⟩
    · rcases List.mem_append.1 hcall with hc | hc
      · exact h.calls call hc
      · obtain ⟨q, hq, rfl⟩ := List.mem_map.1 hc
        exact hcalls l es rfl q hq
    · conv_rhs => rw [ofSolo, hx, List.filterMap_append, List.filterMap_append,
        List.filterMap_append, List.length_append, filterMap_openDenial, filterMap_openLoad,
        filterMap_decision]
      rfl

/-- An action on the screen is an event of the machine. -/
theorem act_step {s : QueueScreen α} {env : Env} {a : Action}
    {res : Except Fault (After (PendingList α))} (h : m.act s.list a = some res)
    (hfault : s.fault = none) :
    ∃ ev, eventOf x (.acted env a) = some ev ∧ step m s ev = some (s.after res) ∧
      ∀ l es, res = .ok (l, es) → ∀ q ∈ requests es, m.Calls q := by
  cases a <;> rw [Queue.act] at h
  case approve row =>
    split_ifs at h with hrow
    cases h
    refine ⟨_, rfl, if_pos ⟨hfault, hrow⟩, fun l es hres q hq => ?_⟩
    simp only [Queue.callBackOnApproveButton, bind_eq_ok, pure_eq_ok] at hres
    obtain ⟨item, -, l', -, hres⟩ := hres
    cases hres
    cases List.mem_singleton.1 hq
    exact .approve _
  case deny row =>
    split_ifs at h with hrow
    cases h
    refine ⟨_, rfl, if_pos ⟨hfault, hrow⟩, fun l es hres q hq => ?_⟩
    simp only [Queue.callBackOnDenyButton, bind_eq_ok, pure_eq_ok] at hres
    obtain ⟨item, -, hres⟩ := hres
    cases hres
    cases List.mem_singleton.1 hq
    exact .deny _ _
  case refresh =>
    cases h
    refine ⟨_, rfl, if_pos hfault, fun l es hres q hq => ?_⟩
    cases hres
    cases List.mem_singleton.1 hq
    exact .load
  all_goals cases h

/-- No closure of the queue makes a call. -/
theorem requests_receive {k : Callback} {r : Reply} {l : PendingList α}
    {es : List Effect} {res : Except Fault (After (PendingList α))}
    (h : m.receive list k r = some res) (hres : res = .ok (l, es)) : requests es = [] := by
  unfold Queue.receive at h
  split at h
  · next r =>
    cases r with
    | error err =>
      cases h
      cases hres
      rfl
    | ok ds =>
      cases h
      simp only [Queue.loadPendingReply, bind_eq_ok, pure_eq_ok] at hres
      obtain ⟨items, -, s', -, hres⟩ := hres
      cases hres
      split_ifs <;> rfl
  · next row error =>
    cases error with
    | some err =>
      cases h
      cases hres
      rfl
    | none =>
      cases h
      simp only [Queue.denyReply, bind_eq_ok, pure_eq_ok] at hres
      obtain ⟨s', -, hres⟩ := hres
      cases hres
      rfl
  · cases h

/-- A call of the screen has been answered. -/
theorem Shows.answered (h : Shows m view list x) {i : ℕ} {q : Request} (r : Reply)
    (hi : x.calls[i]? = some (q, none)) : Shows m view list (x.answered i q r) := by
  refine ⟨h.screen, fun call hcall => ?_⟩
  rcases List.mem_or_eq_of_mem_set hcall with hc | rfl
  · exact h.calls call hc
  · exact h.calls (q, none) (List.mem_of_getElem? hi)

theorem ofSolo_answered_load (list : PendingList α) (r : Reply) {i : ℕ} {n : CollectionName}
    {q : Query}
    (hi : x.calls[i]? = some (.getDocuments n q .pending, none)) :
    0 < (ofSolo list x).loads ∧ ofSolo list (x.answered i (.getDocuments n q .pending) r) =
      { ofSolo list x with loads := (ofSolo list x).loads - 1 } := by
  set call := Request.getDocuments n q .pending
  have hplace := getElem?_place (p := openLoad) hi rfl
  have hlt := (List.getElem?_eq_some_iff.1 hplace).1
  have hdenial : (x.calls.set i (call, some r)).filterMap openDenial = _ :=
    filterMap_set_same hi rfl
  have hload : (x.calls.set i (call, some r)).filterMap openLoad = _ :=
    filterMap_set_none hi rfl rfl
  have hdecision : (x.calls.set i (call, some r)).filterMap decision = _ :=
    filterMap_set_same hi rfl
  refine ⟨Nat.zero_lt_of_lt hlt, ?_⟩
  simp only [ofSolo, SoloScreen.answered, hdenial, hload, hdecision,
    List.length_eraseIdx_of_lt hlt]

theorem ofSolo_answered_deny (list : PendingList α) (r : Reply) {i row : ℕ} {n : CollectionName}
    {id : String}
    (hi : x.calls[i]? = some (.delete n id (.denied row), none)) :
    (ofSolo list x).denies[place openDenial x.calls i]? = some (id, row) ∧
      ofSolo list (x.answered i (.delete n id (.denied row)) r) =
        { ofSolo list x with
          denies := (ofSolo list x).denies.eraseIdx (place openDenial x.calls i) } := by
  set call := Request.delete n id (.denied row)
  have hdenial : (x.calls.set i (call, some r)).filterMap openDenial = _ :=
    filterMap_set_none hi rfl rfl
  have hload : (x.calls.set i (call, some r)).filterMap openLoad = _ := filterMap_set_same hi rfl
  have hdecision : (x.calls.set i (call, some r)).filterMap decision = _ :=
    filterMap_set_same hi rfl
  refine ⟨getElem?_place (p := openDenial) hi rfl, ?_⟩
  simp only [ofSolo, SoloScreen.answered, hdenial, hload, hdecision]

theorem ofSolo_answered_approve {i : ℕ} {n : CollectionName} {id : String}
    {ups : List (String × FieldValue)} {r : Reply}
    (hi : x.calls[i]? = some (.updateData n id ups, none)) :
    ofSolo list (x.answered i (.updateData n id ups) r) = ofSolo list x := by
  set call := Request.updateData n id ups
  have hdenial : (x.calls.set i (call, some r)).filterMap openDenial = _ :=
    filterMap_set_same hi rfl
  have hload : (x.calls.set i (call, some r)).filterMap openLoad = _ := filterMap_set_same hi rfl
  have hdecision : (x.calls.set i (call, some r)).filterMap decision = _ :=
    filterMap_set_same hi rfl
  simp only [ofSolo, SoloScreen.answered, hdenial, hload, hdecision]

/-- **A step of the screen** is an event of the machine, or nothing to it. -/
theorem step_ofSolo {P : Request → Reply → Prop} (hview : m.ShownBy view)
    (hP : ∀ q r, P q r → m.Calls q → Answers m q r) (h : Shows m view list x)
    {e : SoloScreen.Event} (hgiven : x.Given P e) (hs : x.step e = some y) :
    ∃ list', Shows m view list' y ∧ ((eventOf x e = none ∧ ofSolo list' y = ofSolo list x) ∨
      ∃ ev, eventOf x e = some ev ∧ step m (ofSolo list x) ev = some (ofSolo list' y)) := by
  rw [SoloScreen.step] at hs
  split_ifs at hs with hfault
  cases e with
  | acted env a =>
    rw [SoloScreen.react, h.screen, hview.act, Option.map_map, Option.map_eq_some_iff] at hs
    obtain ⟨res, hres, rfl⟩ := hs
    obtain ⟨ev, hev, hstep, hcalls⟩ := act_step (s := ofSolo list x) hres hfault
    obtain ⟨list', hlist, hafter⟩ := ofSolo_after h hcalls
    exact ⟨list', hlist, .inr ⟨ev, hev, hstep.trans (congrArg some hafter)⟩⟩
  | replied env i r =>
    rw [SoloScreen.react] at hs
    split at hs
    swap
    · cases hs
    next q hi =>
    have hq : m.Calls q := h.calls (q, none) (List.mem_of_getElem? hi)
    have hans := hP q r (hgiven env i r q rfl hi) hq
    have htakes := hans.takes
    have hx := h.answered r hi
    have hreceive : ∀ k, x.screen.receive env k r = (m.receive list k r).map (lift view) := by
      intro k
      rw [h.screen, hview.receive]
    cases hq with
    | load =>
      cases r <;> try cases htakes
      next res =>
      obtain ⟨hpos, hload⟩ := ofSolo_answered_load list (.documents res) hi
      rw [Request.callback, Option.bind_some, hreceive] at hs
      cases hs
      have hreceived : m.receive list .pending (.documents res) = some _ := rfl
      obtain ⟨list', hlist, hafter⟩ := ofSolo_after hx fun l es hres q hq => by
        rw [requests_receive hreceived hres] at hq
        cases hq
      refine ⟨list', hlist, .inr ⟨.loaded res, ?_, ?_⟩⟩
      · rw [eventOf, hi]
        rfl
      · rw [step, if_pos ⟨hfault, hpos, hans.distinct res rfl rfl⟩, ← hload]
        exact congrArg some hafter
    | approve id =>
      cases hs
      refine ⟨list, hx, .inl ⟨?_, ofSolo_answered_approve hi⟩⟩
      cases r <;> try cases htakes
      rw [eventOf, hi]
      rfl
    | deny id row =>
      cases r <;> try cases htakes
      next error =>
      obtain ⟨hrow, hdeny⟩ := ofSolo_answered_deny list (.completion error) hi
      rw [Request.callback, Option.bind_some, hreceive] at hs
      cases hs
      have hreceived : m.receive list (.denied row) (.completion error) = some _ := rfl
      obtain ⟨list', hlist, hafter⟩ := ofSolo_after hx fun l es hres q hq => by
        rw [requests_receive hreceived hres] at hq
        cases hq
      refine ⟨list', hlist, .inr ⟨.denied (place openDenial x.calls i) error, ?_, ?_⟩⟩
      · rw [eventOf, hi]
        rfl
      · rw [step, hrow]
        refine (if_pos hfault).trans ?_
        rw [← hdeny]
        exact congrArg some hafter
  | snapshot i =>
    rw [SoloScreen.react] at hs
    split at hs
    swap
    · cases hs
    next q hi =>
    have hq : m.Calls q := h.calls (q, none) (List.mem_of_getElem? hi)
    cases hq <;> cases hs

/-- What happens on a screen is, to the machine, this. -/
def eventsOf (x : SoloScreen) (es : List SoloScreen.Event) : List QueueEvent :=
  soloScreen.log (fun x e => (eventOf x e).toList) x es

/-- The machine follows the screen: where what happens there meets `W`, its events meet `D`. -/
theorem simulates_solo {P : Request → Reply → Prop} {W : SoloScreen → SoloScreen.Event → Prop}
    {D : QueueScreen α → QueueEvent → Prop} (hview : m.ShownBy view)
    (hP : ∀ q r, P q r → m.Calls q → Answers m q r)
    (hD : ∀ x list e ev, W x e → eventOf x e = some ev → D (ofSolo list x) ev) :
    soloScreen.Simulates (machine m) (fun x e => x.Given P e ∧ W x e) D
      (fun x q => ∃ list, Shows m view list x ∧ q = ofSolo list x) eventOf := by
  rintro x e y q ⟨list, hx, rfl⟩ hC hs
  obtain ⟨list', hy, ⟨hnone, hsame⟩ | ⟨ev, hev, hstep⟩⟩ := step_ofSolo hview hP hx hC.1 hs
  · exact .inl ⟨hnone, list', hy, hsame.symm⟩
  · exact .inr ⟨ev, _, hev, hD x list e ev hC.2 hev, hstep, list', hy, rfl⟩

/-- **A run of the screen** is a run of the machine. -/
theorem steps_of_solo {P : Request → Reply → Prop} {W : SoloScreen → SoloScreen.Event → Prop}
    {D : QueueScreen α → QueueEvent → Prop} (hview : m.ShownBy view)
    (hP : ∀ q r, P q r → m.Calls q → Answers m q r)
    (hD : ∀ x list e ev, W x e → eventOf x e = some ev → D (ofSolo list x) ev)
    {x₀ : SoloScreen} {es : List SoloScreen.Event} (h₀ : x₀.Opened)
    (hrun : soloScreen.Steps (fun x e => x.Given P e ∧ W x e) x₀ es x)
    (hscr : x.screen = view list) :
    (machine m).Steps D (viewDidLoad m) (eventsOf (m.opened view) es) (ofSolo list x) := by
  have hkind : x₀.screen.kind = (view {}).kind := by
    rw [← SoloScreen.kind_of_steps hrun, hscr]
    exact hview.kind _ _
  obtain ⟨scr, effects, hopened, rfl⟩ := h₀
  obtain ⟨rfl, rfl⟩ := hview.opened scr effects hopened hkind
  have hinit : Shows m view {} (m.opened view) := by
    refine ⟨rfl, fun call hcall => ?_⟩
    cases List.mem_singleton.1 hcall
    exact .load
  obtain ⟨q, hsteps, list', hx, rfl⟩ :=
    (simulates_solo hview hP hD).steps ⟨{}, hinit, rfl⟩ hrun
  have heq : list' = list := hview.injective (hx.screen.symm.trans hscr)
  exact heq ▸ hsteps

/-! ## A moderator who waits -/

/-- A button is pressed, or the list pulled to refresh, only when no delete and no query of the
screen is open. -/
def Waits (s : QueueScreen α) (e : QueueEvent) : Prop :=
  (∀ i error, e ≠ .denied i error) → (∀ r, e ≠ .loaded r) → s.denies = [] ∧ s.loads = 0

/-- An action comes only when no delete and no query of the screen is open. -/
def ActsIdle (x : SoloScreen) (e : SoloScreen.Event) : Prop :=
  ∀ env a, e = .acted env a →
    x.calls.filterMap openDenial = [] ∧ x.calls.filterMap openLoad = []

theorem waits_of_actsIdle {e : SoloScreen.Event} {ev : QueueEvent} (h : ActsIdle x e)
    (hev : eventOf x e = some ev) : Waits (ofSolo list x) ev := by
  intro hdenied hloaded
  cases e with
  | acted env a =>
    obtain ⟨hdenials, hloads⟩ := h env a rfl
    exact ⟨hdenials, congrArg List.length hloads⟩
  | replied env i r =>
    cases r <;> try cases hev
    case documents res =>
      obtain ⟨-, -, rfl⟩ := Option.map_eq_some_iff.1 hev
      exact absurd rfl (hloaded res)
    case completion error =>
      obtain ⟨-, -, rfl⟩ := Option.map_eq_some_iff.1 hev
      exact absurd rfl (hdenied _ error)
  | snapshot i => cases hev

/-- The only open delete is of the item that is at its row, and no query is open meanwhile. -/
def OneOpen (m : Queue α) (s : QueueScreen α) : Prop :=
  s.denies = [] ∨ ∃ id row, s.denies = [(id, row)] ∧ s.loads = 0 ∧
    (s.list.items[row]?).map m.id = some id

/-- No closure of the queue deletes anything. -/
theorem denies_receive {s : QueueScreen α} {k : Callback} {r : Reply}
    {res : Except Fault (After (PendingList α))} (h : m.receive s.list k r = some res) :
    (s.after res).denies = s.denies := by
  cases res with
  | error f => rfl
  | ok x =>
    obtain ⟨l, es⟩ := x
    have hes : denials es = [] := by
      rw [← filterMap_openDenial, unanswered, requests_receive h rfl]
      rfl
    exact (congrArg _ hes).trans (List.append_nil _)

theorem OneOpen.rowHolds {s : QueueScreen α} (h : OneOpen m s) (e : QueueEvent) :
    RowHolds m s e := by
  rintro i id row - hi
  rcases h with hnil | ⟨id', row', hone, -, hrow⟩
  · rw [hnil] at hi
    cases hi
  · rw [hone, List.getElem?_singleton] at hi
    split_ifs at hi
    cases hi
    exact hrow

theorem OneOpen.step {s s' : QueueScreen α} (h : OneOpen m s) (hI : s.Inv m) {e : QueueEvent}
    (hw : Waits s e) (hs : step m s e = some s') : OneOpen m s' := by
  cases e with
  | approve row =>
    obtain ⟨hdenies, -⟩ := hw (by simp) (by simp)
    simp only [QueueScreen.step] at hs
    split_ifs at hs with hcond
    obtain ⟨item, -, heq⟩ := callBackOnApproveButton_eq hI hcond.2
    rw [heq] at hs
    cases hs
    refine .inl ?_
    change s.denies ++ [] = []
    rw [hdenies]
    rfl
  | deny row =>
    obtain ⟨hdenies, hloads⟩ := hw (by simp) (by simp)
    simp only [QueueScreen.step] at hs
    split_ifs at hs with hcond
    obtain ⟨item, hitem, heq⟩ := callBackOnDenyButton_eq hI hcond.2
    rw [heq] at hs
    cases hs
    refine .inr ⟨m.id item, row, ?_, hloads, ?_⟩
    · change s.denies ++ [(m.id item, row)] = _
      rw [hdenies]
      rfl
    · change (s.list.items[row]?).map m.id = _
      rw [hitem]
      rfl
  | refresh =>
    obtain ⟨hdenies, -⟩ := hw (by simp) (by simp)
    simp only [QueueScreen.step] at hs
    split_ifs at hs
    cases hs
    refine .inl ?_
    change s.denies ++ [] = []
    rw [hdenies]
    rfl
  | denied i error =>
    simp only [QueueScreen.step] at hs
    split at hs
    · next id row hi =>
      split_ifs at hs
      cases hs
      refine .inl ?_
      rw [denies_receive (m := m) (k := .denied row) (r := .completion error) rfl]
      rcases h with hnil | ⟨id', row', hone, -⟩
      · rw [hnil] at hi
        cases hi
      · rw [hone, List.getElem?_singleton] at hi
        split_ifs at hi with hzero
        change s.denies.eraseIdx i = []
        rw [hone, hzero]
        rfl
    · cases hs
  | loaded r =>
    simp only [QueueScreen.step] at hs
    split_ifs at hs with hcond
    cases hs
    refine .inl ?_
    rw [denies_receive (m := m) (k := .pending) (r := .documents r) rfl]
    rcases h with hnil | ⟨id, row, -, hloads, -⟩
    · exact hnil
    · exact absurd hcond.2.1 (hloads ▸ Nat.lt_irrefl 0)

/-- A moderator who waits for the screen loses no item. -/
theorem steps_exactly_of_waits {s : QueueScreen α} (hm : ∀ d t, m.ofDocument d ≠ .error (.trap t))
    {es : List QueueEvent} (h : (machine m).Steps Waits (viewDidLoad m) es s) :
    (machine m).Steps (StepsExactly m) (viewDidLoad m) es s := by
  refine h.congr (I := fun s => s.Inv m ∧ OneOpen m s) ⟨initial_inv, .inl rfl⟩
    fun s e s' hI hs hw => ?_
  have hrow := hI.2.rowHolds e
  have hexact := (step_exact_iff hm hI.1 hs).2 hrow
  exact ⟨fun s'' hs'' => (step_exact_iff hm hI.1 hs'').2 hrow, step_inv hm hI.1 hs hexact,
    hI.2.step hI.1 hw hs⟩

end QueueScreen

namespace System

variable {ι : Type} [DecidableEq ι] {s t : System ι} {c : ι} {k : ℕ}

/-! ## In the app -/

/-- What a queue takes for granted of the answers, the app gives. -/
theorem answers_of_gives {α : Type} {m : Queue α} {time : α → ℕ}
    (hread : ∀ (u : System ι) (i : String) (d : Document) (x : α), u.Inv False →
      u.DocumentOK False m.collection i d → m.ofDocument d = .ok x →
      m.id x = i ∧ d "time" = some (.timestamp (time x)))
    (h : (machine ι).Reachable s) {q : Request} {r : Reply} (hg : s.Gives q r) :
    QueueScreen.Answers m q r := by
  refine ⟨hg.takes h, fun res hq hr => ?_⟩
  subst hq hr
  obtain ⟨f, hf, hreq, hr⟩ := hg
  unfold QueueScreen.Distinct
  split
  · trivial
  next ds =>
  split
  · next items hitems =>
    have hgot : s.Got m.collection m.pending ds := ⟨f, hf, .pending, by rw [hreq]; rfl, hr⟩
    exact (ranked_of_whole (q := m.pending) rfl (.inr ⟨ds, hgot.wasTop h, hitems⟩) hread).nodup
  · trivial

/-- The deletes of screen `k` of device `c` that have not been answered. -/
def openDenials (s : System ι) (c : ι) (k : ℕ) : List (String × ℕ) :=
  (s.callsOf c k).filterMap fun call => openDenial call.2

/-- Its queries that have not been answered. -/
def openLoads (s : System ι) (c : ι) (k : ℕ) : List Unit :=
  (s.callsOf c k).filterMap fun call => openLoad call.2

/-- An action on the screen comes only when no delete and no query of it is open. -/
def Waits (s : System ι) (c : ι) (k : ℕ) : Event ι → Prop
  | .act c' k' _ _ => c' = c → k' = k → s.openDenials c k = [] ∧ s.openLoads c k = []
  | _ => True

instance (s : System ι) (c : ι) (k : ℕ) : (e : Event ι) → Decidable (s.Waits c k e)
  | .act _ _ _ _ => inferInstanceAs (Decidable (_ → _ → _ ∧ _))
  | .launch _ | .serve _ _ | .deliver _ _ | .setMod _ _ => inferInstanceAs (Decidable True)

theorem Plays.openCalls {x : SoloScreen} (h : s.Plays c k x)
    (hrun : (s.clients c).running = true) :
    s.openDenials c k = x.calls.filterMap openDenial ∧
      s.openLoads c k = x.calls.filterMap openLoad := by
  rw [openDenials, openLoads, (h.live hrun).2, launched, List.filterMap_map, List.filterMap_map]
  exact ⟨rfl, rfl⟩

/-- A screen of a queue along a run whose steps meet `C`: it is a run of the machine, whose steps
meet `D`. -/
theorem queue_steps {α : Type} {m : Queue α} {view : PendingList α → Screen} {time : α → ℕ}
    {C : System ι → Event ι → Prop} {W : SoloScreen → SoloScreen.Event → Prop}
    {D : QueueScreen α → QueueEvent → Prop} (hview : m.ShownBy view)
    (hread : ∀ (u : System ι) (i : String) (d : Document) (x : α), u.Inv False →
      u.DocumentOK False m.collection i d → m.ofDocument d = .ok x →
      m.id x = i ∧ d "time" = some (.timestamp (time x)))
    (hC : ∀ s e, C s e → ¬ s.Relaunches c k e)
    (hW : ∀ s e u x ev, C s e → s.step e = some u → s.Plays c k x →
      s.soloEvent c k e = some ev → W x ev)
    (hD : ∀ x list e ev, W x e → QueueScreen.eventOf x e = some ev →
      D (QueueScreen.ofSolo list x) ev)
    {s₀ : System ι} {es : List (Event ι)} (h₀ : s₀.Initial) (hrun : (machine ι).Steps C s₀ es t)
    {n : Node} (hn : t.At c k n) {list : PendingList α} (hscr : n.screen = view list) :
    ∃ x, t.Plays c k x ∧ (QueueScreen.machine m).Steps D (QueueScreen.viewDidLoad m)
      (QueueScreen.eventsOf (m.opened view) (s₀.soloLog c k es)) (QueueScreen.ofSolo list x) := by
  obtain ⟨x₀, x, hx₀, hsteps, hx, hplays⟩ := solo_steps hC hW h₀ hrun hn
  have hreach : (machine ι).Reachable t := hrun.reachable (.init h₀)
  have hanswers : ∀ q r, t.Gives q r → m.Calls q → QueueScreen.Answers m q r :=
    fun _ _ hg _ => answers_of_gives hread hreach hg
  exact ⟨x, hplays,
    QueueScreen.steps_of_solo hview hanswers hD hx₀ hsteps (hx.symm.trans hscr)⟩

/-- The moderation machine is what the app does on the screens of a queue. -/
theorem queue_of_run {α : Type} {m : Queue α} {view : PendingList α → Screen} {time : α → ℕ}
    (hview : m.ShownBy view)
    (hread : ∀ (u : System ι) (i : String) (d : Document) (x : α), u.Inv False →
      u.DocumentOK False m.collection i d → m.ofDocument d = .ok x →
      m.id x = i ∧ d "time" = some (.timestamp (time x)))
    {s₀ : System ι} {es : List (Event ι)} (h₀ : s₀.Initial)
    (hrun : (machine ι).Steps (fun s e => ¬ s.Relaunches c k e) s₀ es t)
    {n : Node} (hn : t.At c k n) {list : PendingList α} (hscr : n.screen = view list) :
    ∃ q : QueueScreen α, (QueueScreen.machine m).Steps (fun _ _ => True)
      (QueueScreen.viewDidLoad m)
      (QueueScreen.eventsOf (m.opened view) (s₀.soloLog c k es)) q ∧ q.list = list ∧
        ((t.clients c).running = true → q.fault = none ∧ q.denies = t.openDenials c k ∧
          q.loads = (t.openLoads c k).length) := by
  obtain ⟨x, hplays, hsteps⟩ := queue_steps (W := fun _ _ => True) (D := fun _ _ => True) hview
    hread (fun _ _ h => h) (fun _ _ _ _ _ _ _ _ _ => trivial) (fun _ _ _ _ _ _ => trivial) h₀
    hrun hn hscr
  refine ⟨_, hsteps, rfl, fun hrunning => ?_⟩
  obtain ⟨hdenials, hloads⟩ := hplays.openCalls hrunning
  exact ⟨(hplays.live hrunning).1, hdenials.symm, congrArg List.length hloads.symm⟩

/-- **The moderation screens of the app** are the moderation machine: along a run in which the
device is not launched again, the list of such a screen is what the machine makes of the buttons
pressed on that screen and of the answers to its own calls, whatever happens on other screens and
devices; and so are, while the process runs, its open deletes with the rows they captured and its
open queries. -/
theorem moderation_screens_of_run {s₀ : System ι} {es : List (Event ι)} (h₀ : s₀.Initial)
    (hrun : (machine ι).Steps (fun s e => ¬ s.Relaunches c k e) s₀ es t)
    {n : Node} (hn : t.At c k n) :
    (∀ list, n.screen = .moderationPosts list → ∃ q : QueueScreen AEPost,
      (QueueScreen.machine moderationPost).Steps (fun _ _ => True)
        (QueueScreen.viewDidLoad moderationPost)
        (QueueScreen.eventsOf (moderationPost.opened .moderationPosts) (s₀.soloLog c k es)) q ∧
      q.list = list ∧ ((t.clients c).running = true → q.fault = none ∧
        q.denies = t.openDenials c k ∧ q.loads = (t.openLoads c k).length)) ∧
    ∀ list, n.screen = .moderationComments list → ∃ q : QueueScreen Comment,
      (QueueScreen.machine moderationComment).Steps (fun _ _ => True)
        (QueueScreen.viewDidLoad moderationComment)
        (QueueScreen.eventsOf (moderationComment.opened .moderationComments)
          (s₀.soloLog c k es)) q ∧
      q.list = list ∧ ((t.clients c).running = true → q.fault = none ∧
        q.denies = t.openDenials c k ∧ q.loads = (t.openLoads c k).length) :=
  ⟨fun _ hscr => queue_of_run Queue.shownBy_moderationPosts read_post h₀ hrun hn hscr,
    fun _ hscr => queue_of_run Queue.shownBy_moderationComments read_comment h₀ hrun hn hscr⟩

/-- An action of a moderator who waits. -/
theorem Plays.actsIdle {x : SoloScreen} (h : s.Plays c k x) {e : Event ι} (hw : s.Waits c k e)
    (hs : s.step e = some t) {ev : SoloScreen.Event} (hev : s.soloEvent c k e = some ev) :
    QueueScreen.ActsIdle x ev := by
  rintro env a rfl
  cases e with
  | act c' k' a' env' =>
    obtain ⟨-, -, -, hrun, -⟩ := act_cases hs
    rw [soloEvent] at hev
    split_ifs at hev with hck
    obtain ⟨hdenials, hloads⟩ := h.openCalls (hck.1 ▸ hrun)
    have hidle := hw hck.1 hck.2
    exact ⟨hdenials ▸ hidle.1, hloads ▸ hidle.2⟩
  | serve i r =>
    obtain ⟨f, -, hev⟩ := Option.bind_eq_some_iff.1 hev
    split_ifs at hev
    cases hev
  | deliver i date =>
    obtain ⟨f, -, hev⟩ := Option.bind_eq_some_iff.1 hev
    split_ifs at hev
    obtain ⟨r, -, hev⟩ := Option.map_eq_some_iff.1 hev
    cases hev
  | launch c' => cases hev
  | setMod uid mod => cases hev

/-- On the screens of a queue, a moderator who waits loses no item. -/
theorem queue_exact {α : Type} {m : Queue α} {view : PendingList α → Screen} {time : α → ℕ}
    (hview : m.ShownBy view) (hm : ∀ d t, m.ofDocument d ≠ .error (.trap t))
    (hread : ∀ (u : System ι) (i : String) (d : Document) (x : α), u.Inv False →
      u.DocumentOK False m.collection i d → m.ofDocument d = .ok x →
      m.id x = i ∧ d "time" = some (.timestamp (time x)))
    {s₀ : System ι} {es : List (Event ι)} (h₀ : s₀.Initial)
    (hrun : (machine ι).Steps (fun s e => ¬ s.Relaunches c k e ∧ s.Waits c k e) s₀ es t)
    {n : Node} (hn : t.At c k n) {list : PendingList α} (hscr : n.screen = view list) :
    ∃ q : QueueScreen α, (QueueScreen.machine m).Steps (QueueScreen.StepsExactly m)
      (QueueScreen.viewDidLoad m)
      (QueueScreen.eventsOf (m.opened view) (s₀.soloLog c k es)) q ∧ q.list = list := by
  obtain ⟨x, -, hsteps⟩ := queue_steps (W := QueueScreen.ActsIdle) (D := QueueScreen.Waits) hview
    hread (fun _ _ h => h.1) (fun _ _ _ _ _ h hs hx hev => hx.actsIdle h.2 hs hev)
    (fun _ _ _ _ hidle hev => QueueScreen.waits_of_actsIdle hidle hev) h₀ hrun hn hscr
  exact ⟨_, QueueScreen.steps_exactly_of_waits hm hsteps, rfl⟩

/-- **A moderator who waits is safe**: along a run in which the actions on a moderation screen come
only when no delete and no query of it is open, every step of the machine that the screen is was
exact, whatever the other devices do. -/
theorem exact_when_waiting {s₀ : System ι} {es : List (Event ι)} (h₀ : s₀.Initial)
    (hrun : (machine ι).Steps (fun s e => ¬ s.Relaunches c k e ∧ s.Waits c k e) s₀ es t)
    {n : Node} (hn : t.At c k n) :
    (∀ list, n.screen = .moderationPosts list → ∃ q : QueueScreen AEPost,
      (QueueScreen.machine moderationPost).Steps (QueueScreen.StepsExactly moderationPost)
        (QueueScreen.viewDidLoad moderationPost)
        (QueueScreen.eventsOf (moderationPost.opened .moderationPosts) (s₀.soloLog c k es)) q ∧
      q.list = list) ∧
    ∀ list, n.screen = .moderationComments list → ∃ q : QueueScreen Comment,
      (QueueScreen.machine moderationComment).Steps (QueueScreen.StepsExactly moderationComment)
        (QueueScreen.viewDidLoad moderationComment)
        (QueueScreen.eventsOf (moderationComment.opened .moderationComments)
          (s₀.soloLog c k es)) q ∧
      q.list = list := by
  refine ⟨fun _ hscr => ?_, fun _ hscr => ?_⟩
  · exact queue_exact Queue.shownBy_moderationPosts
      (QueueScreen.ofDocument_ne_trap AEPost.casts_ofDocument) read_post h₀ hrun hn hscr
  · exact queue_exact Queue.shownBy_moderationComments
      (QueueScreen.ofDocument_ne_trap (Comment.casts_ofDocument false)) read_comment h₀ hrun hn hscr

/-- Mo denies Ann's post, the call 8, and the delete completes. -/
def deniedByMo : List (Event ℕ) :=
  pendingPostEvents ++ [.act 1 5 (.deny 0) {}, .serve 8 .success, .deliver 8 0]

/-- The ids on a moderation screen for posts. -/
def pendingPostIDs : Screen → Option (List String)
  | .moderationPosts list => some (list.items.map AEPost.id)
  | _ => none

/-- The list is empty after it. -/
theorem exists_deniedByMo : ∃ (t : System ℕ) (n : Node) (list : PendingList AEPost),
    (machine ℕ).Steps (fun s e => ¬ s.Relaunches 1 5 e ∧ s.Waits 1 5 e) (start annMoAndMax)
      deniedByMo t ∧ t.At 1 5 n ∧ n.screen = .moderationPosts list ∧ list.items = [] := by
  obtain ⟨t, ht, hp⟩ := (machine ℕ).exists_of_runWhile
    (C := fun s e => ¬ s.Relaunches 1 5 e ∧ s.Waits 1 5 e)
    (fun s e => decide (¬ s.Relaunches 1 5 e ∧ s.Waits 1 5 e))
    (fun s e h => of_decide_eq_true h) (start annMoAndMax) deniedByMo
    (fun t => ((t.clients 1).nodes[5]?).any fun n => pendingPostIDs n.screen = some [])
    (by decide +kernel)
  obtain ⟨n, hn, hids⟩ := (Option.any_eq_true _ _).1 hp
  cases hscr : n.screen with
  | moderationPosts list =>
    rw [hscr] at hids
    exact ⟨t, n, list, ht, hn, hscr, by simpa [pendingPostIDs] using hids⟩
  | _ =>
    rw [hscr] at hids
    cases hids

theorem moderation_screens_of_run_mo : ∃ (t : System ℕ) (q : QueueScreen AEPost),
    (QueueScreen.machine moderationPost).Steps (fun _ _ => True)
      (QueueScreen.viewDidLoad moderationPost)
      (QueueScreen.eventsOf (moderationPost.opened .moderationPosts)
        ((start annMoAndMax).soloLog 1 5 deniedByMo)) q ∧ q.list.items = [] ∧
      ((t.clients 1).running = true → q.denies = t.openDenials 1 5) := by
  obtain ⟨t, n, list, ht, hn, hscr, hitems⟩ := exists_deniedByMo
  obtain ⟨q, hq, hlist, hrun⟩ := (moderation_screens_of_run (initial_start annMoAndMax)
    (ht.mono fun _ _ h => h.1) hn).1 list hscr
  exact ⟨t, q, hq, hlist ▸ hitems, fun h => (hrun h).2.1⟩

theorem exact_when_waiting_mo : ∃ q : QueueScreen AEPost,
    (QueueScreen.machine moderationPost).Steps (QueueScreen.StepsExactly moderationPost)
      (QueueScreen.viewDidLoad moderationPost)
      (QueueScreen.eventsOf (moderationPost.opened .moderationPosts)
        ((start annMoAndMax).soloLog 1 5 deniedByMo)) q ∧ q.list.items = [] := by
  obtain ⟨t, n, list, ht, hn, hscr, hitems⟩ := exists_deniedByMo
  obtain ⟨q, hq, hlist⟩ := (exact_when_waiting (initial_start annMoAndMax) ht hn).1 list hscr
  exact ⟨q, hq, hlist ▸ hitems⟩

end System

end ArtsExplorer
