import TaskManager.App.Stack

/-!
# The pages of the application

`Page` is the common shape of the five pages: where their states are on the screens, what
their requests do, and how their handlers start and go on.  What holds of an application
made of such pages is proved for a page, and used at each of the five.
-/

namespace TaskManager.App

open TaskManager.Shared
open TaskManager.Pages
open TaskManager.Routes
open TaskManager.Verified.EventLoop

/-- What all pages have: their state on the screen, their setters, their requests, and their
handlers. -/
structure Page (σ α ρ ε : Type) where
  seen : Screen → Option σ
  lift : (σ → σ) → Screen → Screen
  wrap : α → Await
  serve : Disk → α → Disk × ρ
  key : ρ → Nat
  resume : ρ → Effect σ α
  handle : Nat → Nat → σ → ε → Option (Effect σ α)

/-- `LOGIN` -/
def Page.login : Page Login.State Login.Await Login.Ready Login.Event where
  seen screen := match screen with
    | .AUTH (.LOGIN s) => some s
    | _ => none
  lift := Screen.onLogin
  wrap := .login
  serve := Login.Await.serve
  key := Login.Ready.key
  resume := Login.Ready.resume
  handle := Login.handle

/-- `SIGNUP` -/
def Page.signup : Page Signup.State Signup.Await Signup.Ready Signup.Event where
  seen screen := match screen with
    | .AUTH (.SIGNUP s) => some s
    | _ => none
  lift := Screen.onSignup
  wrap := .signup
  serve := Signup.Await.serve
  key := Signup.Ready.key
  resume := Signup.Ready.resume
  handle key id s e := some (Signup.handle key id s e)

/-- `HOME` -/
def Page.home : Page Home.State Home.Await Home.Ready Home.Event where
  seen screen := match screen with
    | .HOME s => some s
    | _ => none
  lift := Screen.onHome
  wrap := .home
  serve := Home.Await.serve
  key := Home.Ready.key
  resume := Home.Ready.resume
  handle key id _ e := some (Home.handle key id e)

/-- The end of `handleBack` waits for no screen, so that its key does not matter. -/
def Page.create :
    Page TaskCreation.State TaskCreation.Await TaskCreation.Ready TaskCreation.Event where
  seen screen := match screen with
    | .CREATE s => some s
    | _ => none
  lift := Screen.onCreate
  wrap := .create
  serve := TaskCreation.Await.serve
  key r := match r with
    | .fetchMembers key _ => key
    | .handleBack => 0
  resume := TaskCreation.Ready.resume
  handle _ _ _ e := some (TaskCreation.handle e)

/-- `LIST` -/
def Page.list : Page MembersList.State MembersList.Await MembersList.Ready MembersList.Event where
  seen screen := match screen with
    | .LIST s => some s
    | _ => none
  lift := Screen.onList
  wrap := .list
  serve := MembersList.Await.serve
  key := MembersList.Ready.key
  resume := MembersList.Ready.resume
  handle key _ s e := MembersList.handle key s e

namespace Page

variable {σ α ρ ε : Type} (page : Page σ α ρ ε)

/-- An event of the page, which reaches it when it has the focus. -/
def onEvent (e : ε) (ui : Ui) : Option (Ui × Issued Await) :=
  (page.seen ui.focused.screen).bind fun s =>
    (page.handle ui.focused.key ui.nextCall s e).map fun eff =>
      (counted ui).perform page.lift page.wrap ui.focused.key eff

/-- A handler of the page goes on, whether its screen is still mounted or not. -/
def onReady (r : ρ) (ui : Ui) : Ui × Issued Await :=
  ui.perform page.lift page.wrap (page.key r) (page.resume r)

end Page

theorem handle_login (e : Login.Event) (ui : Ui) :
    app.handle (.login e) ui = Page.login.onEvent e ui := by
  simp only [app, handle, Page.onEvent, Page.login]
  cases ui.focused.screen with
  | AUTH s => cases s <;> rfl
  | HOME s => rfl
  | CREATE s => rfl
  | LIST s => rfl

theorem handle_signup (e : Signup.Event) (ui : Ui) :
    app.handle (.signup e) ui = Page.signup.onEvent e ui := by
  simp only [app, handle, Page.onEvent, Page.signup]
  cases ui.focused.screen with
  | AUTH s => cases s <;> rfl
  | HOME s => rfl
  | CREATE s => rfl
  | LIST s => rfl

theorem handle_home (e : Home.Event) (ui : Ui) :
    app.handle (.home e) ui = Page.home.onEvent e ui := by
  simp only [app, handle, Page.onEvent, Page.home]
  cases ui.focused.screen <;> rfl

theorem handle_create (e : TaskCreation.Event) (ui : Ui) :
    app.handle (.create e) ui = Page.create.onEvent e ui := by
  simp only [app, handle, Page.onEvent, Page.create]
  cases ui.focused.screen <;> rfl

theorem handle_list (e : MembersList.Event) (ui : Ui) :
    app.handle (.list e) ui = Page.list.onEvent e ui := by
  simp only [app, handle, Page.onEvent, Page.list]
  cases ui.focused.screen <;> rfl

theorem resume_create (r : TaskCreation.Ready) (ui : Ui) :
    app.resume (.create r) ui = Page.create.onReady r ui := by
  cases r with
  | fetchMembers key list => rfl
  | handleBack =>
      show (ui, _) = ui.perform Screen.onCreate .create 0 {}
      have hLift : Screen.onCreate id = id := onCreate_id
      simp [Ui.perform, Ui.modify, hLift]

end TaskManager.App
