import TaskManager.Routes.Navigation
import TaskManager.Verified.InOrder

/-!
# The application

The screens and the navigator put together as a program of
`Verified/EventLoop.lean`: user events go to the focused screen, and a
continuation goes to the screen instance that waits for it, mounted or not.
-/

namespace TaskManager.App

open TaskManager.Shared
open TaskManager.Pages
open TaskManager.Routes
open TaskManager.Verified.EventLoop

/-- What a user can do, on the screens and with the back button of the system. -/
inductive Event where
  | login (e : Login.Event)
  | signup (e : Signup.Event)
  | home (e : Home.Event)
  | create (e : TaskCreation.Event)
  | list (e : MembersList.Event)
  /-- the back action of the system, which no screen handles -/
  | systemBack
  deriving DecidableEq, Repr

/-- Number the event, so that presses can be told apart. -/
def counted (ui : Ui) : Ui := { ui with nextCall := ui.nextCall + 1 }

/-- A handler of the focused screen runs up to its first call on the store; an event of
another screen cannot happen. -/
def handle (e : Event) (ui : Ui) : Option (Ui × Issued Await) :=
  let key := ui.focused.key
  match e, ui.focused.screen with
  | .login e, .AUTH (.LOGIN s) =>
      (Login.handle key ui.nextCall s e).map fun eff =>
        (counted ui).perform Screen.onLogin .login key eff
  | .signup e, .AUTH (.SIGNUP s) =>
      some ((counted ui).perform Screen.onSignup .signup key
        (Signup.handle key ui.nextCall s e))
  | .home e, .HOME _ =>
      some ((counted ui).perform Screen.onHome .home key
        (Home.handle key ui.nextCall e))
  | .create e, .CREATE _ =>
      some ((counted ui).perform Screen.onCreate .create key (TaskCreation.handle e))
  | .list e, .LIST s =>
      (MembersList.handle key s e).map fun eff =>
        (counted ui).perform Screen.onList .list key eff
  | .systemBack, _ =>
      let (ui', effects) := (counted ui).navigate .goBack
      some (ui', { effects := effects })
  | _, _ => none

/-- A handler goes on after a call on the store has been reported. -/
def resume (r : Ready) (ui : Ui) : Ui × Issued Await :=
  match r with
  | .login r => ui.perform Screen.onLogin .login r.key r.resume
  | .signup r => ui.perform Screen.onSignup .signup r.key r.resume
  | .home r => ui.perform Screen.onHome .home r.key r.resume
  | .create (.fetchMembers key list) =>
      ui.perform Screen.onCreate .create key (TaskCreation.Ready.fetchMembers key list).resume
  -- the end of `handleBack` touches no screen
  | .create .handleBack => (ui, {})
  | .list r => ui.perform Screen.onList .list r.key r.resume

/-- The store performs a call. -/
def serve (a : Await) (d : Disk) : Disk × Ready :=
  match a with
  | .login a => ((a.serve d).1, .login (a.serve d).2)
  | .signup a => ((a.serve d).1, .signup (a.serve d).2)
  | .home a => ((a.serve d).1, .home (a.serve d).2)
  | .create a => ((a.serve d).1, .create (a.serve d).2)
  | .list a => ((a.serve d).1, .list (a.serve d).2)

/-- A fresh process mounts `AUTH`. -/
def launch (ui : Ui) : Ui × Issued Await :=
  let (ui', effects) := ui.mountOver .AUTH (0, 0) []
  (ui', { effects := effects })

/-- The application: its screens, its handlers and its store. -/
def app : Program Disk Await Ready Ui Event where
  serve := serve
  resume := resume
  handle := handle
  launch := launch

/-- The states of the application: the store, the screens, and what is under way. -/
abbrev State := TaskManager.Verified.EventLoop.State Disk Await Ready Ui
/-- The steps of the application, of its user and of its store. -/
abbrev Action := TaskManager.Verified.EventLoop.Action Event
/-- The states and the steps of a run. -/
abbrev History := TaskManager.Verified.EventLoop.Program.History Disk Await Ready Ui Event

/-- The first launch: `LOGIN` is mounted and its launch check is due. -/
def Ui.first : Ui where
  focused := ⟨0, .AUTH (.LOGIN {})⟩
  below := []
  nextKey := 1
  nextCall := 0

/-- The first launch, with an empty store. -/
def init : State where
  disk := {}
  ui := Ui.first
  effects := [.login (.isUserLoggedIn 0)]
  pending := []
  served := []

/-- The state a list of actions leads to from the first launch over an empty
store. -/
abbrev run (xs : List Action) : Option State := app.exec init xs

/-- Some run ends in the state. -/
def Reachable (s : State) : Prop := ∃ xs, run xs = some s

/-- A run from a reachable state ends in one. -/
theorem Reachable.exec {s s' : State} {xs : List Action} (h : Reachable s)
    (hRun : app.exec s xs = some s') : Reachable s' := by
  obtain ⟨ys, hPre⟩ := h
  refine ⟨ys ++ xs, ?_⟩
  show app.exec init (ys ++ xs) = some s'
  rw [app.exec_append, show app.exec init ys = some s from hPre]
  exact hRun

theorem Reachable.step {s s' : State} {x : Action} (h : Reachable s)
    (hx : app.Step s x s') : Reachable s' :=
  h.exec (app.exec_snoc (app.exec_nil s) hx)

end TaskManager.App
