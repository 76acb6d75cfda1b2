import TaskManager.App.Pages
import TaskManager.App.ScreenMap

/-!
# Changing what the application holds, page by page

A `PageMap` changes what one page holds, in its state, its requests, its continuations
and its events, and lets the handlers of the page do the same before and after.  An
`AppMap` is one of them for each page, over a common map of the store.

## Main results

* `AppMap.morphism` — the changes of the pages make up a map of the application to
  itself, so that `Morphism.exec_map` applies to whole runs.
-/

namespace TaskManager.App

open TaskManager.Shared
open TaskManager.Pages
open TaskManager.Routes
open TaskManager.Verified.EventLoop

/-! ## Maps of pages -/

/-- The stretch `eff'` does to the images what `eff` does. -/
structure Commutes {σ α : Type} (dates : Nat × Nat → Nat × Nat) (state : σ → σ) (await : α → α)
    (eff eff' : Effect σ α) : Prop where
  navigate : eff'.navigate = eff.navigate.map (redated dates)
  update : ∀ s, state (eff.update s) = eff'.update (state s)
  requests : eff'.requests = eff.requests.map await

/-- A map of one page: its states, requests, continuations and events, over a map of the
stores. -/
structure PageMap {σ α ρ ε : Type} (page : Page σ α ρ ε) (disk : Disk → Disk)
    (dates : Nat × Nat → Nat × Nat) where
  state : σ → σ
  await : α → α
  ready : ρ → ρ
  event : ε → ε
  serve : ∀ d a, page.serve (disk d) (await a) =
    (disk (page.serve d a).1, ready (page.serve d a).2)
  key : ∀ r, page.key (ready r) = page.key r
  resume : ∀ r, Commutes dates state await (page.resume r) (page.resume (ready r))
  handle : ∀ key id s e, Option.Rel (Commutes dates state await) (page.handle key id s e)
    (page.handle key id (state s) (event e))

/-- A map of every page, under which fresh screens stay fresh and loads stay the same. -/
structure AppMap where
  disk : Disk → Disk
  dates : Nat × Nat → Nat × Nat
  dates_zero : dates (0, 0) = (0, 0)
  login : PageMap Page.login disk dates
  signup : PageMap Page.signup disk dates
  home : PageMap Page.home disk dates
  create : PageMap Page.create disk dates
  list : PageMap Page.list disk dates
  login_mount : login.state {} = {}
  signup_mount : signup.state {} = {}
  home_mount : home.state {} = {}
  create_mount : ∀ d, create.state (.init d) = .init (dates d)
  list_mount : list.state {} = {}
  login_load : ∀ key, login.await (.isUserLoggedIn key) = .isUserLoggedIn key
  home_load : ∀ key, home.await (.getUserInfo key) = .getUserInfo key
  create_load : ∀ key, create.await (.fetchMembers key) = .fetchMembers key
  list_load : ∀ key, list.await (.getDraft key) = .getDraft key

namespace AppMap

variable (g : AppMap)

/-- Each screen by the map of its page. -/
def apply : Screen → Screen
  | .AUTH (.LOGIN s) => .AUTH (.LOGIN (g.login.state s))
  | .AUTH (.SIGNUP s) => .AUTH (.SIGNUP (g.signup.state s))
  | .HOME s => .HOME (g.home.state s)
  | .CREATE s => .CREATE (g.create.state s)
  | .LIST s => .LIST (g.list.state s)

/-- The map of the screens, under which a fresh screen is fresh. -/
def screens : ScreenMap where
  apply := g.apply
  dates := g.dates
  dates_zero := g.dates_zero
  mount d name := by
    cases name with
    | AUTH => exact congrArg (fun s => Screen.AUTH (.LOGIN s)) g.login_mount
    | LOGIN => exact congrArg (fun s => Screen.AUTH (.LOGIN s)) g.login_mount
    | SIGNUP => exact congrArg (fun s => Screen.AUTH (.SIGNUP s)) g.signup_mount
    | HOME => exact congrArg Screen.HOME g.home_mount
    | CREATE => exact congrArg Screen.CREATE (g.create_mount d)
    | LIST => exact congrArg Screen.LIST g.list_mount
  name screen := by
    cases screen with
    | AUTH s => cases s <;> rfl
    | HOME s => rfl
    | CREATE s => rfl
    | LIST s => rfl

/-- Each request by the map of its page. -/
def await : Await → Await
  | .login a => .login (g.login.await a)
  | .signup a => .signup (g.signup.await a)
  | .home a => .home (g.home.await a)
  | .create a => .create (g.create.await a)
  | .list a => .list (g.list.await a)

/-- Each continuation by the map of its page. -/
def ready : Ready → Ready
  | .login r => .login (g.login.ready r)
  | .signup r => .signup (g.signup.ready r)
  | .home r => .home (g.home.ready r)
  | .create r => .create (g.create.ready r)
  | .list r => .list (g.list.ready r)

/-- Each event by the map of its page. -/
def event : Event → Event
  | .login e => .login (g.login.event e)
  | .signup e => .signup (g.signup.event e)
  | .home e => .home (g.home.event e)
  | .create e => .create (g.create.event e)
  | .list e => .list (g.list.event e)
  | .systemBack => .systemBack

theorem await_load (a : Await) (ha : IsLoad a) : g.await a = a := by
  cases ha with
  | login key => exact congrArg Await.login (g.login_load key)
  | home key => exact congrArg Await.home (g.home_load key)
  | create key => exact congrArg Await.create (g.create_load key)
  | list key => exact congrArg Await.list (g.list_load key)

/-! ## What the handlers do on the images -/

variable {σ α ρ ε : Type} {page : Page σ α ρ ε} (m : PageMap page g.disk g.dates)

/-- How a page lies in the application: its state is that of its screens, and its requests
are requests of the application. -/
structure Holds : Prop where
  seen : ∀ screen, page.seen (g.apply screen) = (page.seen screen).map m.state
  lift : ∀ f f' : σ → σ, (∀ s, m.state (f s) = f' (m.state s)) →
    ∀ screen, g.apply (page.lift f screen) = page.lift f' (g.apply screen)
  wrap : ∀ a, g.await (page.wrap a) = page.wrap (m.await a)

variable {g m}

theorem Holds.perform (h : g.Holds m) {eff eff' : Effect σ α}
    (hCommutes : Commutes g.dates m.state m.await eff eff') (key : Nat) (ui : Ui) :
    (g.screens.ui ui).perform page.lift page.wrap key eff' =
      (g.screens.ui (ui.perform page.lift page.wrap key eff).1,
        (ui.perform page.lift page.wrap key eff).2.map g.await) :=
  g.screens.perform_map g.await_load h.wrap hCommutes.navigate (h.lift _ _ hCommutes.update)
    hCommutes.requests key ui

theorem Holds.onReady (h : g.Holds m) (r : ρ) (ui : Ui) :
    page.onReady (m.ready r) (g.screens.ui ui) =
      (g.screens.ui (page.onReady r ui).1, (page.onReady r ui).2.map g.await) := by
  unfold Page.onReady
  rw [m.key]
  exact h.perform (m.resume r) _ ui

theorem Holds.onEvent (h : g.Holds m) (e : ε) (ui : Ui) :
    page.onEvent (m.event e) (g.screens.ui ui) =
      (page.onEvent e ui).map fun out => (g.screens.ui out.1, out.2.map g.await) := by
  have hSeen : page.seen (g.screens.ui ui).focused.screen =
      (page.seen ui.focused.screen).map m.state := h.seen _
  unfold Page.onEvent
  rw [hSeen]
  cases page.seen ui.focused.screen with
  | none => rfl
  | some s =>
      have hHandle := m.handle ui.focused.key ui.nextCall s e
      show (page.handle ui.focused.key ui.nextCall (m.state s) (m.event e)).map _ =
        ((page.handle ui.focused.key ui.nextCall s e).map _).map _
      revert hHandle
      generalize page.handle ui.focused.key ui.nextCall s e = out
      generalize page.handle ui.focused.key ui.nextCall (m.state s) (m.event e) = out'
      intro hHandle
      cases hHandle with
      | none => rfl
      | some hCommutes => exact congrArg some (h.perform hCommutes _ (counted ui))

variable (g)

theorem holds_login : g.Holds g.login where
  seen screen := by rcases screen with (s | s) | s | s | s <;> rfl
  lift f f' h screen := by
    rcases screen with (s | s) | s | s | s
    · exact congrArg (fun s => Screen.AUTH (.LOGIN s)) (h s)
    all_goals rfl
  wrap a := rfl

theorem holds_signup : g.Holds g.signup where
  seen screen := by rcases screen with (s | s) | s | s | s <;> rfl
  lift f f' h screen := by
    rcases screen with (s | s) | s | s | s
    · rfl
    · exact congrArg (fun s => Screen.AUTH (.SIGNUP s)) (h s)
    all_goals rfl
  wrap a := rfl

theorem holds_home : g.Holds g.home where
  seen screen := by rcases screen with (s | s) | s | s | s <;> rfl
  lift f f' h screen := by
    rcases screen with (s | s) | s | s | s
    · rfl
    · rfl
    · exact congrArg Screen.HOME (h s)
    all_goals rfl
  wrap a := rfl

theorem holds_create : g.Holds g.create where
  seen screen := by rcases screen with (s | s) | s | s | s <;> rfl
  lift f f' h screen := by
    rcases screen with (s | s) | s | s | s
    · rfl
    · rfl
    · rfl
    · exact congrArg Screen.CREATE (h s)
    · rfl
  wrap a := rfl

theorem holds_list : g.Holds g.list where
  seen screen := by rcases screen with (s | s) | s | s | s <;> rfl
  lift f f' h screen := by
    rcases screen with (s | s) | s | s | s
    · rfl
    · rfl
    · rfl
    · rfl
    · exact congrArg Screen.LIST (h s)
  wrap a := rfl

/-- The application, and what the maps of its pages make of it. -/
def morphism : Morphism app app where
  disk := g.disk
  await := g.await
  ready := g.ready
  ui := g.screens.ui
  event := g.event
  serve a d := by
    cases a with
    | login a => exact congrArg (fun out => (out.1, Ready.login out.2)) (g.login.serve d a)
    | signup a => exact congrArg (fun out => (out.1, Ready.signup out.2)) (g.signup.serve d a)
    | home a => exact congrArg (fun out => (out.1, Ready.home out.2)) (g.home.serve d a)
    | create a => exact congrArg (fun out => (out.1, Ready.create out.2)) (g.create.serve d a)
    | list a => exact congrArg (fun out => (out.1, Ready.list out.2)) (g.list.serve d a)
  resume r ui _ := by
    cases r with
    | login r => exact g.holds_login.onReady r ui
    | signup r => exact g.holds_signup.onReady r ui
    | home r => exact g.holds_home.onReady r ui
    | create r =>
        show app.resume (.create (g.create.ready r)) (g.screens.ui ui) = _
        rw [resume_create, resume_create]
        exact g.holds_create.onReady r ui
    | list r => exact g.holds_list.onReady r ui
  handle e ui _ := by
    cases e with
    | login e =>
        rw [event, handle_login, handle_login]
        exact g.holds_login.onEvent e ui
    | signup e =>
        rw [event, handle_signup, handle_signup]
        exact g.holds_signup.onEvent e ui
    | home e =>
        rw [event, handle_home, handle_home]
        exact g.holds_home.onEvent e ui
    | create e =>
        rw [event, handle_create, handle_create]
        exact g.holds_create.onEvent e ui
    | list e =>
        rw [event, handle_list, handle_list]
        exact g.holds_list.onEvent e ui
    | systemBack => exact g.screens.systemBack_map g.await_load ui
  launch ui _ := g.screens.launch_map g.await_load ui

end AppMap

/-! ## Pages that stay as they are -/

theorem map_redated_id (nav : Option Nav) : nav.map (redated id) = nav := by
  cases nav with
  | none => rfl
  | some nav => cases nav <;> rfl

theorem Commutes.refl {σ α : Type} (eff : Effect σ α) : Commutes id id id eff eff where
  navigate := (map_redated_id _).symm
  update _ := rfl
  requests := (List.map_id _).symm

/-- A page that is left as it is. -/
def PageMap.refl {σ α ρ ε : Type} (page : Page σ α ρ ε) : PageMap page id id where
  state := id
  await := id
  ready := id
  event := id
  serve _ _ := rfl
  key _ := rfl
  resume r := .refl (page.resume r)
  handle key id s e := by
    show Option.Rel _ (page.handle key id s e) (page.handle key id s e)
    cases page.handle key id s e with
    | none => exact .none
    | some eff => exact .some (.refl eff)

end TaskManager.App
