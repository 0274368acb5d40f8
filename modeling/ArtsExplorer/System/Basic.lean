import ArtsExplorer.Foundations.Machine
import ArtsExplorer.App.Screen

/-!
# The app on many devices over one backend

A `System` is a family of devices, the backend (accounts, documents, Storage objects) and `net`,
every asynchronous call the devices have made, in the order of the calls. A call waits until the
backend serves it (`Event.serve`, with the outcome in the event) and the answer until it is
delivered to the closure (`Event.deliver`); calls are served and answers delivered in any order.
Reads are evaluated and writes applied atomically when the call is served. A call whose process has
ended meanwhile may still be served, but its closure never runs.

A device keeps the signed-in user across launches. Its screens are `Node`s, numbered in the order
of creation. What fills the window is a container of screens: the initial navigation controller or
a tab bar. A new container always covers or replaces the one before it for good, so the user only
reaches the screens of the newest one (`Client.front`), and in a navigation controller only the top
one (`Client.top`). Within a tab bar the model lets the user act on any screen.
-/

namespace ArtsExplorer

open Foundations

/-- A screen of a device. -/
structure Node where
  container : ℕ
  /-- The screen whose segue created it. -/
  opener : Option ℕ
  /-- Who was signed in when its view was loaded. -/
  user : Option String
  screen : Screen

/-- A device. -/
structure Client where
  /-- The number of launches. -/
  epoch : ℕ := 0
  running : Bool := false
  /-- What ended the last process, if it ended by a fault. -/
  fault : Option Fault := none
  /-- `Auth.auth().currentUser`. -/
  currentUser : Option String := none
  nodes : List Node := []
  /-- The container that fills the window. -/
  front : ℕ := 0
  /-- The top screen of the navigation controller in front; `none` under a tab bar. -/
  top : Option ℕ := none
  alerts : List (String × String) := []

/-- An asynchronous call and its progress. -/
structure Flight (ι : Type) where
  client : ι
  /-- The launch of the process that made the call. -/
  epoch : ℕ
  /-- The screen whose handler made it. -/
  node : ℕ
  /-- Who was signed in when it was made. -/
  user : Option String
  request : Request
  reply : Option Reply := none
  delivered : Bool := false

/-- An account of Auth. -/
structure Account where
  email : String
  password : String
  uid : String
  deriving DecidableEq

/-- The places that show the main tab bar. -/
inductive Entrance
  /-- `ViewController.viewDidLoad`. -/
  | viewDidLoad
  /-- `goToHome` of the sign-up or log-in screen that is node `k`. -/
  | goToHome (k : ℕ)
  deriving DecidableEq

/-- A record of the tab bar coming in front. -/
structure HomeEntry (ι : Type) where
  client : ι
  entrance : Entrance
  /-- `Auth.auth().currentUser` at that moment. -/
  user : Option String

structure System (ι : Type) where
  clients : ι → Client
  accounts : List Account
  store : CollectionName → Collection
  /-- The objects of Storage. -/
  objects : String → Option UIImage
  net : List (Flight ι) := []
  /-- The values `UUID()` has returned. -/
  uuids : List String := []
  entries : List (HomeEntry ι) := []

/-- What the backend makes of a call. -/
inductive Answer
  | success
  | failure (error : String)
  /-- A new account with this uid. -/
  | created (uid : String)
  deriving DecidableEq

inductive Event (ι : Type)
  /-- The app is launched; a process of it that was running is ended. -/
  | launch (c : ι)
  /-- An action on screen `k`. `env` says what the platform returns, the signed-in user apart. -/
  | act (c : ι) (k : ℕ) (a : Action) (env : Env)
  | serve (i : ℕ) (a : Answer)
  | deliver (i : ℕ) (date : ℕ)
  /-- An administrator sets the `mod` field of a user document. -/
  | setMod (uid : String) (mod : Bool)

/-- The actions whose handler draws a `UUID()`. -/
def Action.drawsUUID : Action → Bool
  | .uploadPressed | .sendCommentPressed | .editTapped => true
  | _ => false

/-! ## A device's screens -/

namespace Client

variable (cl : Client)

/-- A new screen in the container in front. -/
def push (opener : Option ℕ) (screen : Screen) : Client :=
  { cl with nodes := cl.nodes ++ [⟨cl.front, opener, cl.currentUser, screen⟩] }

/-- A segue of screen `k` creates `screen`: in a navigation controller it is on top. -/
def openScreen (k : ℕ) (screen : Screen) : Client :=
  { cl.push (some k) screen with top := cl.top.map fun _ => cl.nodes.length }

/-- The initial navigation controller comes in front, with its root. -/
def showInitial : Client :=
  ({ cl with front := cl.front + 1, top := some cl.nodes.length } : Client).push none .initial

/-- The main tab bar comes in front, with the home screen in its first tab. -/
def showHome : Client :=
  (({ cl with front := cl.front + 1, top := none } : Client).push none (.tabBar false false)).push
    (some cl.nodes.length) (.home HomeViewController.viewDidLoad.1)

/-- The controller of screen `k` changes. -/
def setScreen (k : ℕ) (screen : Screen) : Client :=
  { cl with nodes := cl.nodes.modify k fun n => { n with screen := screen } }

end Client

namespace System

variable {ι : Type} [DecidableEq ι] (s : System ι) (c : ι) (k : ℕ)

/-! ## What a handler does to the system -/

/-- Change a device. -/
def modify (f : Client → Client) : System ι :=
  { s with clients := Function.update s.clients c (f (s.clients c)) }

/-- The process ends. -/
def crash (f : Fault) : System ι :=
  s.modify c fun cl => { cl with running := false, fault := some f }

/-- The handler of screen `k` makes a call. -/
def send (r : Request) : System ι :=
  { s with
    net := s.net ++ [{ client := c, epoch := (s.clients c).epoch, node := k,
                       user := (s.clients c).currentUser, request := r }] }

/-- Several calls, in order. -/
def sendAll (s : System ι) (c : ι) (k : ℕ) : List Effect → System ι
  | [] => s
  | .request r :: es => sendAll (s.send c k r) c k es
  | _ :: es => sendAll s c k es

/-- A segue from screen `k`. -/
def openScreen (env : Env) (d : Destination) : System ι :=
  match Screen.load { env with currentUser := (s.clients c).currentUser } d with
  | .error f => s.crash c f
  | .ok (screen, effects) =>
    (s.modify c fun cl => cl.openScreen k screen).sendAll c (s.clients c).nodes.length effects

/-- The main tab bar comes in front, and its home screen is loaded. -/
def enterHome (entrance : Entrance) : System ι :=
  ({ s with entries := s.entries ++ [HomeEntry.mk c entrance (s.clients c).currentUser] }.modify c
    Client.showHome).sendAll c ((s.clients c).nodes.length + 1) HomeViewController.viewDidLoad.2

/-- The initial navigation controller comes in front; `ViewController.viewDidLoad` covers it with
the tab bar if somebody is signed in. -/
def enterInitial : System ι :=
  if (s.clients c).currentUser = none then s.modify c Client.showInitial
  else (s.modify c Client.showInitial).enterHome c .viewDidLoad

/-- An effect of a handler of screen `k`. `goToHome` replaces the window's root, so it does nothing
when the screen is not in the window any more. -/
def performOne (env : Env) : Effect → System ι
  | .request r => s.send c k r
  | .createAlert title message =>
    s.modify c fun cl => { cl with alerts := cl.alerts ++ [(title, message)] }
  | .segue d => s.openScreen c k env d
  | .pop => s.modify c fun cl => { cl with top := (cl.nodes[k]?).bind Node.opener }
  | .goToHome => if (s.clients c).top = some k then s.enterHome c (.goToHome k) else s
  | .signOut => s.modify c fun cl => { cl with currentUser := none }
  | .presentInitial => s.enterInitial c

/-- The effects of a handler, in order. -/
def perform (env : Env) (s : System ι) (c : ι) (k : ℕ) : List Effect → System ι
  | [] => s
  | e :: es => perform env (s.performOne c k env e) c k es

/-- The result of a handler of screen `k`. -/
def handle (env : Env) : Except Fault (After Screen) → System ι
  | .error f => s.crash c f
  | .ok (screen, effects) => perform env (s.modify c fun cl => cl.setScreen k screen) c k effects

/-! ## The backend -/

/-- Replace a collection. -/
def setStore (n : CollectionName) (col : Collection) : System ι :=
  { s with store := Function.update s.store n col }

/-- What serving a call does to the backend, and its answer; `none` when it cannot be served so. -/
def evaluate : Request → Answer → Option (System ι × Reply)
  | .getDocument n id _, .success => some (s, .document ((s.store n).lookup id))
  | .getDocument _ _ _, .failure _ => some (s, .document none)
  | .getDocuments n q _, .success => some (s, .documents (.ok ((s.store n).getDocuments q)))
  | .getDocuments _ _ _, .failure e => some (s, .documents (.error e))
  | .addSnapshotListener n q _, .success => some (s, .documents (.ok ((s.store n).getDocuments q)))
  | .addSnapshotListener _ _ _, .failure e => some (s, .documents (.error e))
  | .setData n id fields _, .success =>
    some (s.setStore n ((s.store n).setData id (.ofFields fields)), .completion none)
  | .setData _ _ _ _, .failure e => some (s, .completion (some e))
  | .updateData n id ups, .success =>
    match (s.store n).lookup id with
    | some _ => some (s.setStore n ((s.store n).updateData id ups), .completion none)
    | none => some (s, .completion (some "No document to update"))
  | .updateData _ _ _, .failure e => some (s, .completion (some e))
  | .delete n id _, .success => some (s.setStore n ((s.store n).delete id), .completion none)
  | .delete _ _ _, .failure e => some (s, .completion (some e))
  | .putData path data _, .success =>
    some ({ s with objects := Function.update s.objects path (some data) }, .completion none)
  | .putData _ _ _, .failure e => some (s, .completion (some e))
  | .createUser email password _, .created uid =>
    if (∀ a ∈ s.accounts, a.email ≠ email ∧ a.uid ≠ uid) then
      some ({ s with accounts := s.accounts ++ [⟨email, password, uid⟩] }, .auth (.ok uid))
    else none
  | .createUser _ _ _, .failure e => some (s, .auth (.error e))
  | .signIn email password _, .success =>
    (s.accounts.find? fun a => a.email = email ∧ a.password = password).map fun a =>
      (s, .auth (.ok a.uid))
  | .signIn _ _ _, .failure e => some (s, .auth (.error e))
  | _, _ => none

/-- Serve call `i`. A snapshot listener stays registered: its answers are calls of their own. -/
def serve (i : ℕ) (a : Answer) : Option (System ι) :=
  match s.net[i]? with
  | some f =>
    if f.reply.isNone then
      match s.evaluate f.request a with
      | some (s', r) =>
        match f.request with
        | .addSnapshotListener _ _ _ =>
          some { s' with net := s'.net ++ [{ f with reply := some r }] }
        | _ => some { s' with net := s'.net.set i { f with reply := some r } }
      | none => none
    else none
  | none => none

/-! ## Steps -/

/-- A successful `createUser` or `signIn` has signed the user in when its closure is called. -/
def signIn : Reply → System ι
  | .auth (.ok uid) => s.modify c fun cl => { cl with currentUser := some uid }
  | _ => s

/-- Deliver the answer of call `i`. -/
def deliver (i date : ℕ) : Option (System ι) :=
  match s.net[i]? with
  | some f =>
    match f.reply with
    | some r =>
      if f.delivered then none
      else
        let s' := { s with net := s.net.set i { f with delivered := true } }
        if (s.clients f.client).running ∧ (s.clients f.client).epoch = f.epoch then
          let s' := s'.signIn f.client r
          let cl := s'.clients f.client
          let env : Env := { date := date, currentUser := cl.currentUser }
          match f.request.callback, cl.nodes[f.node]? with
          | some k, some n =>
            match n.screen.receive env k r with
            | some result => some (s'.handle f.client f.node env result)
            | none => some s'
          | _, _ => some s'
        else some s'
    | none => none
  | none => none

/-- The user can act on screen `k`: it is in the container in front and, in a navigation
controller, on top. -/
def Reaches (cl : Client) (k : ℕ) (n : Node) : Prop :=
  n.container = cl.front ∧ (cl.top = none ∨ cl.top = some k)

instance (cl : Client) (k : ℕ) (n : Node) : Decidable (Reaches cl k n) :=
  inferInstanceAs (Decidable (_ ∧ _))

/-- An action on screen `k`. -/
def act (a : Action) (env : Env) : Option (System ι) :=
  let cl := s.clients c
  let env := { env with currentUser := cl.currentUser }
  match cl.nodes[k]? with
  | some n =>
    if cl.running ∧ (a.byUser = true → Reaches cl k n) ∧
        (a.drawsUUID = true → env.uuid ∉ s.uuids) then
      let s' := if a.drawsUUID then { s with uuids := env.uuid :: s.uuids } else s
      (n.screen.act env a).map (s'.handle c k env)
    else none
  | none => none

/-- The app is launched. -/
def launch : System ι :=
  (s.modify c fun cl =>
    { cl with epoch := cl.epoch + 1, running := true, fault := none }).enterInitial
    c

/-- The step of the system. -/
def step : Event ι → Option (System ι)
  | .launch c => some (s.launch c)
  | .act c k a env => s.act c k a env
  | .serve i a => s.serve i a
  | .deliver i date => s.deliver i date
  | .setMod uid mod =>
    some (s.setStore .users ((s.store .users).updateData uid [("mod", .value (.bool mod))]))

/-! ## Where a run starts -/

/-- The document of user `u` as a run finds it: any name, bio and `mod`, nothing saved. -/
def IsUserDocument (u : String) (d : Document) : Prop :=
  ∃ name bio mod, d = .ofFields [("id", .string u), ("name", .string name), ("mod", .bool mod),
    ("savedPosts", .array []), ("avatarID", .string ""), ("bio", .string bio)]

/-- No post, comment or object is stored, no device is running, and the accounts are those with a
user document. -/
structure Initial (s : System ι) : Prop where
  clients : ∀ c, s.clients c = {}
  posts : s.store .posts = ∅
  comments : s.store .comments = ∅
  users : ∀ u d, (s.store .users).lookup u = some d → IsUserDocument u d
  account_iff : ∀ u, (∃ a ∈ s.accounts, a.uid = u) ↔ ∃ d, (s.store .users).lookup u = some d
  objects : ∀ path, s.objects path = none
  net : s.net = []
  uuids : s.uuids = []
  entries : s.entries = []

end System

/-- The app as a machine, over devices `ι`. -/
def machine (ι : Type) [DecidableEq ι] : Machine (System ι) (Event ι) where
  Initial := System.Initial
  step := System.step

end ArtsExplorer
