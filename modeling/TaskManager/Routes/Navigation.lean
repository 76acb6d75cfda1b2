import TaskManager.Verified.EventLoop
import TaskManager.Pages.Login
import TaskManager.Pages.Signup
import TaskManager.Pages.Home
import TaskManager.Pages.TaskCreation
import TaskManager.Pages.MembersList

/-!
# `routes/MainNavigation.js` and `routes/AuthNavigation.js`

The root stack holds `AUTH`, `HOME`, `CREATE` and `LIST` (`DETAIL` is
registered and nothing navigates to it); `AUTH` nests a stack that always
holds exactly one of `LOGIN` and `SIGNUP`.  The calls on `navigation` act on
the focused root route, whichever screen they come from.

A screen that is mounted runs its mount effect, and `CREATE` runs its focus
effect whenever it gains focus.  Both kinds of callback only issue a request,
so they are named by it.
-/

namespace TaskManager.Routes

open TaskManager.Shared
open TaskManager.Pages
open TaskManager.Verified.EventLoop

/-! ## Requests and continuations of all screens -/

/-- The calls on the store of all screens. -/
inductive Await where
  | login (a : Login.Await)
  | signup (a : Signup.Await)
  | home (a : Home.Await)
  | create (a : TaskCreation.Await)
  | list (a : MembersList.Await)
  deriving DecidableEq, Repr

/-- The calls that have been performed, of all screens. -/
inductive Ready where
  | login (r : Login.Ready)
  | signup (r : Signup.Ready)
  | home (r : Home.Ready)
  | create (r : TaskCreation.Ready)
  | list (r : MembersList.Ready)
  deriving DecidableEq, Repr

/-! ## The navigation state -/

/-- The two screens of `AuthNavigation`, of which one is mounted. -/
inductive AuthScreen where
  | LOGIN (s : Login.State)
  | SIGNUP (s : Signup.State)
  deriving DecidableEq, Repr

/-- The screens of `MainNavigation`, with their states. -/
inductive Screen where
  | AUTH (s : AuthScreen)
  | HOME (s : Home.State)
  | CREATE (s : TaskCreation.State)
  | LIST (s : MembersList.State)
  deriving DecidableEq, Repr

/-- The name of a root route. -/
def Screen.name : Screen → RouteName
  | .AUTH _ => .AUTH
  | .HOME _ => .HOME
  | .CREATE _ => .CREATE
  | .LIST _ => .LIST

/-- A freshly mounted screen. -/
def Screen.mount (dates : Nat × Nat) : RouteName → Screen
  | .AUTH => .AUTH (.LOGIN {})
  | .LOGIN => .AUTH (.LOGIN {})
  | .SIGNUP => .AUTH (.SIGNUP {})
  | .HOME => .HOME {}
  | .CREATE => .CREATE (.init dates)
  | .LIST => .LIST {}

/-- A mounted screen: its state under the key that identifies the instance. -/
structure Route where
  key : Nat
  screen : Screen
  deriving DecidableEq, Repr

/-- What runs when the screen is focused again. -/
def Route.focusEffects (r : Route) : List Await :=
  match r.screen with
  | .CREATE _ => [.create (.fetchMembers r.key)]
  | _ => []

/-- What runs when the screen is mounted, with the focus. -/
def Route.mountEffects (r : Route) : List Await :=
  match r.screen with
  | .AUTH (.LOGIN _) => [.login (.isUserLoggedIn r.key)]
  | .AUTH (.SIGNUP _) => []
  | .HOME _ => [.home (.getUserInfo r.key)]
  | .CREATE _ => [.create (.fetchMembers r.key)]
  | .LIST _ => [.list (.getDraft r.key)]

/-- The root stack, focused route first, which is never empty.  Keys of
screens and numbers of presses are never given out twice. -/
structure Ui where
  focused : Route
  below : List Route
  nextKey : Nat
  nextCall : Nat
  deriving DecidableEq, Repr

namespace Ui

/-- The mounted screens, focused one first. -/
def stack (ui : Ui) : List Route := ui.focused :: ui.below

/-- The names on the stack, focused route first. -/
def names (ui : Ui) : List RouteName := ui.stack.map fun r => r.screen.name

/-- Mount a screen with the focus, over the given routes. -/
def mountOver (ui : Ui) (name : RouteName) (dates : Nat × Nat) (below : List Route) :
    Ui × List Await :=
  let r : Route := ⟨ui.nextKey, Screen.mount dates name⟩
  ({ ui with focused := r, below := below, nextKey := ui.nextKey + 1 }, r.mountEffects)

/-- Give the focus back to a route that is already on the stack. -/
def refocus (ui : Ui) (r : Route) (below : List Route) : Ui × List Await :=
  ({ ui with focused := r, below := below }, r.focusEffects)

/-- The calls on `navigation`.  `navigate` goes back to a route of that name
when the stack has one, and `goBack` does nothing on the last route. -/
def navigate (ui : Ui) : Nav → Ui × List Await
  | .replace name => ui.mountOver name (0, 0) ui.below
  | .reset name => ui.mountOver name (0, 0) []
  | .navigate name dates =>
      if ui.focused.screen.name = name then (ui, [])
      else
        match ui.below.dropWhile fun r => r.screen.name ≠ name with
        | [] => ui.mountOver name dates ui.stack
        | r :: rest => ui.refocus r rest
  | .goBack =>
      match ui.below with
      | [] => (ui, [])
      | r :: rest => ui.refocus r rest

/-- The setters of the screen instance `key`, if it is still mounted. -/
def modify (ui : Ui) (key : Nat) (f : Screen → Screen) : Ui :=
  let on (r : Route) : Route := if r.key = key then { r with screen := f r.screen } else r
  { ui with focused := on ui.focused, below := ui.below.map on }

/-- Execute one stretch of a handler of the screen instance `key`. -/
def perform {σ α : Type} (lift : (σ → σ) → Screen → Screen) (wrap : α → Await)
    (key : Nat) (eff : Effect σ α) (ui : Ui) : Ui × Issued Await :=
  let moved :=
    match eff.navigate with
    | none => (ui, [])
    | some nav => ui.navigate nav
  (moved.1.modify key (lift eff.update),
    { requests := eff.requests.map wrap, effects := moved.2 })

end Ui

/-! ## Setters by kind of screen -/

/-- The setters of `LOGIN`; other screens do not have them. -/
def Screen.onLogin (f : Login.State → Login.State) : Screen → Screen
  | .AUTH (.LOGIN s) => .AUTH (.LOGIN (f s))
  | screen => screen

/-- The setters of `SIGNUP`. -/
def Screen.onSignup (f : Signup.State → Signup.State) : Screen → Screen
  | .AUTH (.SIGNUP s) => .AUTH (.SIGNUP (f s))
  | screen => screen

/-- The setter of `HOME`. -/
def Screen.onHome (f : Home.State → Home.State) : Screen → Screen
  | .HOME s => .HOME (f s)
  | screen => screen

/-- The setters of `CREATE`. -/
def Screen.onCreate (f : TaskCreation.State → TaskCreation.State) : Screen → Screen
  | .CREATE s => .CREATE (f s)
  | screen => screen

/-- The setter of `LIST`, with the records that it edits in place. -/
def Screen.onList (f : MembersList.State → MembersList.State) : Screen → Screen
  | .LIST s => .LIST (f s)
  | screen => screen

end TaskManager.Routes
