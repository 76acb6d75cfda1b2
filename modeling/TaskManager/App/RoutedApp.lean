import TaskManager.App.Pages
import TaskManager.App.Steps
import TaskManager.Routes.Navigators
import TaskManager.Verified.Morphism

/-!
# The application over the router of its navigators

Here a call on `navigation` is dispatched to the navigators of `Routes/Navigators.lean`, by
the screen that makes it, and what is mounted is what their states say.  `asRouted` maps
this application to the one whose navigation is `Ui.navigate`.
-/

namespace TaskManager.App

open TaskManager.Shared
open TaskManager.Pages
open TaskManager.Routes
open TaskManager.Routes.StackRouter
open TaskManager.Verified.EventLoop

/-! ## Stretches of handlers -/

/-- Execute one stretch of a handler of the screen instance `key`. -/
def performRouted {σ α : Type} (lift : (σ → σ) → Screen → Screen) (wrap : α → Await)
    (sender : Sender) (key : Nat) (eff : Effect σ α) (m : Displayed) : Displayed × Issued Await :=
  let moved :=
    match eff.navigate with
    | none => (m, [])
    | some nav => m.navigate sender nav
  ({ moved.1 with ui := moved.1.ui.modify key (lift eff.update) },
    { requests := eff.requests.map wrap, effects := moved.2 })

/-- The `navigation` that the handlers of a page call. -/
def senderOf (name : RouteName) (key : Nat) : Sender :=
  if name ∈ authRouteNames then .auth ⟨name, key⟩ else .main (some ⟨name, key⟩)

namespace Page

variable {σ α ρ ε : Type} (page : Page σ α ρ ε) (name : RouteName)

/-- An event of the page, which reaches it when it has the focus. -/
def onRoutedEvent (e : ε) (m : Displayed) : Option (Displayed × Issued Await) :=
  (page.seen m.ui.focused.screen).bind fun s =>
    (page.handle m.ui.focused.key m.ui.nextCall s e).map fun eff =>
      performRouted page.lift page.wrap (senderOf name m.ui.focused.key) m.ui.focused.key eff
        { m with ui := counted m.ui }

/-- A handler of the page goes on. -/
def onRoutedReady (r : ρ) (m : Displayed) : Displayed × Issued Await :=
  performRouted page.lift page.wrap (senderOf name (page.key r)) (page.key r) (page.resume r) m

end Page

/-! ## The program -/

/-- The handlers of all pages, and the back action of the system at the root navigator. -/
def handleRouted (e : Event) (m : Displayed) : Option (Displayed × Issued Await) :=
  match e with
  | .login e => Page.login.onRoutedEvent .LOGIN e m
  | .signup e => Page.signup.onRoutedEvent .SIGNUP e m
  | .home e => Page.home.onRoutedEvent .HOME e m
  | .create e => Page.create.onRoutedEvent .CREATE e m
  | .list e => Page.list.onRoutedEvent .LIST e m
  | .systemBack =>
      let (m', effects) := ({ m with ui := counted m.ui } : Displayed).navigate (.main none) .goBack
      some (m', { effects := effects })

/-- The continuations of all pages. -/
def resumeRouted (r : Ready) (m : Displayed) : Displayed × Issued Await :=
  match r with
  | .login r => Page.login.onRoutedReady .LOGIN r m
  | .signup r => Page.signup.onRoutedReady .SIGNUP r m
  | .home r => Page.home.onRoutedReady .HOME r m
  | .create r => Page.create.onRoutedReady .CREATE r m
  | .list r => Page.list.onRoutedReady .LIST r m

/-- A fresh process: the navigators start on their first screens. -/
def launchRouted (m : Displayed) : Displayed × Issued Await :=
  let navigation := renderMain m.ui.nextKey
    (getInitialState routerOptions mainRouteNames .AUTH m.ui.nextKey)
  let (ui, effects) := m.ui.commit (0, 0) navigation
  ({ navigation := navigation, ui := ui, rendered := renderedBy navigation },
    { effects := effects })

/-- The application whose calls on `navigation` are dispatched to the navigators. -/
def routedApp : Program Disk Await Ready Displayed Event where
  serve := serve
  resume := resumeRouted
  handle := handleRouted
  launch := launchRouted

/-- Its states: what is displayed, and what is under way. -/
abbrev RoutedState := TaskManager.Verified.EventLoop.State Disk Await Ready Displayed

/-- The first launch. -/
def routedInit : RoutedState where
  disk := {}
  ui :=
    let navigation := renderMain 0 (getInitialState routerOptions mainRouteNames .AUTH 0)
    { navigation := navigation, ui := Ui.first, rendered := renderedBy navigation }
  effects := [.login (.isUserLoggedIn 0)]
  pending := []
  served := []

/-! ## The navigation does what its model says -/

/-- Setters keep the kinds of the screens. -/
structure KeepsKinds (f : Screen → Screen) : Prop where
  name : ∀ screen, (f screen).name = screen.name
  page : ∀ screen, (f screen).page = screen.page

theorem shows_modify {f : Screen → Screen} (hf : KeepsKinds f) (key : Nat) {r : MainRoute}
    {q : Route} (h : Shows r q) :
    Shows r (if q.key = key then { q with screen := f q.screen } else q) := by
  split
  · cases h with
    | @auth k hName hScreen hParams hState =>
        refine .auth (k := k) hName ((hf.name _).trans hScreen) hParams ?_
        rw [hState, hf.page]
    | page hName hScreen hParams hState hKey =>
        refine .page (hName.trans (hf.name _).symm) ?_ hParams hState hKey
        rw [hf.name]
        exact hScreen
  · exact h

theorem stack_modify (ui : Ui) (key : Nat) (f : Screen → Screen) :
    (ui.modify key f).stack =
      ui.stack.map fun q => if q.key = key then { q with screen := f q.screen } else q := rfl

theorem agrees_modify {s : MainState} {ui : Ui} (h : Agrees s ui) {f : Screen → Screen}
    (hf : KeepsKinds f) (key : Nat) : Agrees s (ui.modify key f) where
  names := h.names
  last := h.last
  shown := by
    rw [stack_modify, List.forall₂_map_right_iff]
    exact h.shown.imp fun _ _ => shows_modify hf key
  given r hr := by
    rw [stack_modify] at hr
    obtain ⟨q, hq, rfl⟩ := List.mem_map.mp hr
    have hGiven := h.given q hq
    split
    · exact hGiven
    · exact hGiven
  distinct := by
    have hKeys : ((ui.modify key f).stack.map fun r => r.key) = ui.stack.map fun r => r.key := by
      rw [stack_modify, List.map_map]
      refine List.map_congr_left fun q _ => ?_
      simp only [Function.comp]
      split <;> rfl
    rw [hKeys]
    exact h.distinct

theorem tracks_modify {m : Displayed} (h : Tracks m) {f : Screen → Screen} (hf : KeepsKinds f)
    (key : Nat) : Tracks { m with ui := m.ui.modify key f } :=
  ⟨agrees_modify h.agrees hf key, h.rendered⟩

/-- A press that is counted moves nothing. -/
theorem tracks_counted {m : Displayed} (h : Tracks m) : Tracks { m with ui := counted m.ui } where
  agrees := ⟨h.agrees.names, h.agrees.last, h.agrees.shown, h.agrees.given, h.agrees.distinct⟩
  rendered := h.rendered

/-- The next state of the navigators and what is issued, against those of the model. -/
def Mirrors (out : Displayed × Issued Await) (out' : Ui × Issued Await) : Prop :=
  out' = (out.1.ui, out.2) ∧ Tracks out.1

theorem performRouted_refines {σ α : Type} {lift : (σ → σ) → Screen → Screen}
    {wrap : α → Await} {sender : Sender} {eff : Effect σ α} {m : Displayed}
    (h : Tracks m) (hLift : KeepsKinds (lift eff.update))
    (hNav : ∀ nav, eff.navigate = some nav → Dispatched m.ui sender nav) (key : Nat) :
    Mirrors (performRouted lift wrap sender key eff m) (m.ui.perform lift wrap key eff) := by
  rw [perform_eq]
  cases hMove : eff.navigate with
  | none =>
      simp only [performRouted, hMove, moved]
      exact ⟨rfl, tracks_modify h hLift key⟩
  | some nav =>
      obtain ⟨hSame, hTracks⟩ := navigate_refines h (hNav nav hMove)
      simp only [performRouted, hMove, moved, ← hSame]
      exact ⟨rfl, tracks_modify hTracks hLift key⟩

theorem dispatched_counted {ui : Ui} {sender : Sender} {nav : Nav}
    (h : Dispatched ui sender nav) : Dispatched (counted ui) sender nav := by
  cases h with
  | replace hName => exact .replace hName
  | reset hName => exact .reset hName
  | navigate hName => exact .navigate hName
  | goBack => exact .goBack
  | link hName hScreen => exact .link hName hScreen

namespace Page

/-- What the handlers of a page dispatch, and what their setters change. -/
structure Dispatches {σ α ρ ε : Type} (page : Page σ α ρ ε) (name : RouteName) : Prop where
  lift : ∀ f, KeepsKinds (page.lift f)
  handle : ∀ (ui : Ui) s e eff, page.seen ui.focused.screen = some s →
    page.handle ui.focused.key ui.nextCall s e = some eff →
      ∀ nav, eff.navigate = some nav → Dispatched ui (senderOf name ui.focused.key) nav
  resume : ∀ r (ui : Ui) nav, (page.resume r).navigate = some nav →
    Dispatched ui (senderOf name (page.key r)) nav

variable {σ α ρ ε : Type} {page : Page σ α ρ ε} {name : RouteName}

theorem Dispatches.onReady (h : page.Dispatches name) {m : Displayed} (hTracks : Tracks m)
    (r : ρ) : Mirrors (page.onRoutedReady name r m) (page.onReady r m.ui) :=
  performRouted_refines hTracks (h.lift _) (h.resume r m.ui) _

theorem Dispatches.onEvent (h : page.Dispatches name) {m : Displayed} (hTracks : Tracks m)
    (e : ε) : Option.Rel Mirrors (page.onRoutedEvent name e m) (page.onEvent e m.ui) := by
  unfold Page.onRoutedEvent Page.onEvent
  cases hSeen : page.seen m.ui.focused.screen with
  | none => exact .none
  | some s =>
      simp only [Option.bind_some]
      cases hEff : page.handle m.ui.focused.key m.ui.nextCall s e with
      | none => exact .none
      | some eff =>
          exact .some (performRouted_refines (tracks_counted hTracks) (h.lift _)
            (fun nav hNav => dispatched_counted (h.handle m.ui s e eff hSeen hEff nav hNav)) _)

end Page

/-! ## The five pages -/

theorem keepsKinds_onLogin (f : Login.State → Login.State) : KeepsKinds (Screen.onLogin f) where
  name screen := by rcases screen with (s | s) | s | s | s <;> rfl
  page screen := by rcases screen with (s | s) | s | s | s <;> rfl

theorem keepsKinds_onSignup (f : Signup.State → Signup.State) :
    KeepsKinds (Screen.onSignup f) where
  name screen := by rcases screen with (s | s) | s | s | s <;> rfl
  page screen := by rcases screen with (s | s) | s | s | s <;> rfl

theorem keepsKinds_onHome (f : Home.State → Home.State) : KeepsKinds (Screen.onHome f) where
  name screen := by rcases screen with (s | s) | s | s | s <;> rfl
  page screen := by rcases screen with (s | s) | s | s | s <;> rfl

theorem keepsKinds_onCreate (f : TaskCreation.State → TaskCreation.State) :
    KeepsKinds (Screen.onCreate f) where
  name screen := by rcases screen with (s | s) | s | s | s <;> rfl
  page screen := by rcases screen with (s | s) | s | s | s <;> rfl

theorem keepsKinds_onList (f : MembersList.State → MembersList.State) :
    KeepsKinds (Screen.onList f) where
  name screen := by rcases screen with (s | s) | s | s | s <;> rfl
  page screen := by rcases screen with (s | s) | s | s | s <;> rfl

theorem screen_of_seen_login {screen : Screen} {s : Login.State}
    (h : Page.login.seen screen = some s) : screen = .AUTH (.LOGIN s) := by
  cases screen with
  | AUTH a =>
      cases a with
      | LOGIN st => rw [Option.some.inj h]
      | SIGNUP st => simp [Page.login] at h
  | HOME st => simp [Page.login] at h
  | CREATE st => simp [Page.login] at h
  | LIST st => simp [Page.login] at h

theorem screen_of_seen_signup {screen : Screen} {s : Signup.State}
    (h : Page.signup.seen screen = some s) : screen = .AUTH (.SIGNUP s) := by
  cases screen with
  | AUTH a =>
      cases a with
      | LOGIN st => simp [Page.signup] at h
      | SIGNUP st => rw [Option.some.inj h]
  | HOME st => simp [Page.signup] at h
  | CREATE st => simp [Page.signup] at h
  | LIST st => simp [Page.signup] at h

theorem dispatches_login : Page.login.Dispatches .LOGIN where
  lift := keepsKinds_onLogin
  handle ui s e eff hSeen hEff nav hNav := by
    have hScreen := screen_of_seen_login hSeen
    rcases Login.handle_navigate hEff with hNone | hLink
    · simp [hNone] at hNav
    · rw [hLink, Option.some.injEq] at hNav
      have hDispatched : Dispatched ui (.auth ⟨ui.focused.screen.page, ui.focused.key⟩)
          (.replace .SIGNUP) := .link (by decide) (by rw [hScreen]; rfl)
      rw [hScreen] at hDispatched
      exact hNav ▸ hDispatched
  resume r ui nav hNav := by
    cases r with
    | isUserLoggedIn key info =>
        simp only [Page.login, Login.Ready.resume] at hNav
        split at hNav
        · exact Option.some.inj hNav ▸ .replace (by decide)
        · simp at hNav
    | getUsers call data =>
        rcases Login.afterUsers_cases call data with ⟨-, hEq⟩ | ⟨user, -, -, hEq⟩
        · simp [Page.login, Login.Ready.resume, hEq] at hNav
        · simp [Page.login, Login.Ready.resume, hEq] at hNav
    | setLoggedIn call record => exact Option.some.inj hNav ▸ .replace (by decide)

theorem dispatches_signup : Page.signup.Dispatches .SIGNUP where
  lift := keepsKinds_onSignup
  handle ui s e eff hSeen hEff nav hNav := by
    have hScreen := screen_of_seen_signup hSeen
    obtain rfl := Option.some.inj hEff
    rcases Signup.handle_navigate ui.focused.key ui.nextCall s e with hNone | hLink
    · simp [hNone] at hNav
    · rw [hLink, Option.some.injEq] at hNav
      have hDispatched : Dispatched ui (.auth ⟨ui.focused.screen.page, ui.focused.key⟩)
          (.replace .LOGIN) := .link (by decide) (by rw [hScreen]; rfl)
      rw [hScreen] at hDispatched
      exact hNav ▸ hDispatched
  resume r ui nav hNav := by
    cases r with
    | getUsers call data =>
        rcases Signup.afterUsers_cases call data with ⟨-, hEq⟩ | ⟨-, hEq⟩
        · simp [Page.signup, Signup.Ready.resume, hEq] at hNav
        · simp [Page.signup, Signup.Ready.resume, hEq] at hNav
    | setUsers call => simp [Page.signup, Signup.Ready.resume] at hNav
    | setLoggedIn call => exact Option.some.inj hNav ▸ .replace (by decide)

theorem dispatches_home : Page.home.Dispatches .HOME where
  lift := keepsKinds_onHome
  handle ui s e eff _ hEff nav hNav := by
    obtain rfl := Option.some.inj hEff
    cases e with
    | logout => simp [Home.handle] at hNav
    | createTask dates => exact Option.some.inj hNav ▸ .navigate (by decide)
  resume r ui nav hNav := by
    cases r with
    | getUserInfo key info => simp [Page.home, Home.Ready.resume] at hNav
    | logout id key => exact Option.some.inj hNav ▸ .reset (by decide)

theorem dispatches_create : Page.create.Dispatches .CREATE where
  lift := keepsKinds_onCreate
  handle ui s e eff _ hEff nav hNav := by
    obtain rfl := Option.some.inj hEff
    cases e with
    | addMembers => exact Option.some.inj hNav ▸ .navigate (by decide)
    | handleBack => exact Option.some.inj hNav ▸ .goBack
    | changeName val => simp [TaskCreation.handle] at hNav
    | changeDesc val => simp [TaskCreation.handle] at hNav
    | pressLabel p => simp [TaskCreation.handle] at hNav
    | pressDate p => simp [TaskCreation.handle] at hNav
    | confirm p date => simp [TaskCreation.handle] at hNav
    | cancel p => simp [TaskCreation.handle] at hNav
  resume r ui nav hNav := by
    cases r with
    | fetchMembers key list => simp [Page.create, TaskCreation.Ready.resume] at hNav
    | handleBack => simp [Page.create, TaskCreation.Ready.resume] at hNav

theorem dispatches_list : Page.list.Dispatches .LIST where
  lift := keepsKinds_onList
  handle ui s e eff _ hEff nav hNav := by
    rcases MembersList.handle_navigate hEff with hNone | ⟨-, hArrow⟩
    · simp [hNone] at hNav
    · rw [hArrow] at hNav
      exact Option.some.inj hNav ▸ .goBack
  resume r ui nav hNav := by
    cases r with
    | getDraft key list =>
        cases list with
        | none => simp [Page.list, MembersList.Ready.resume, MembersList.afterDraft] at hNav
        | some list =>
            cases list <;>
              simp [Page.list, MembersList.Ready.resume, MembersList.afterDraft,
                MembersList.finish] at hNav
    | getMembers key list =>
        simp [Page.list, MembersList.Ready.resume, MembersList.finish] at hNav
    | handleSubmit key => exact Option.some.inj hNav ▸ .goBack

/-! ## The application over the router, and over its model -/

theorem resumeRouted_refines (r : Ready) {m : Displayed} (h : Tracks m) :
    Mirrors (resumeRouted r m) (app.resume r m.ui) := by
  cases r with
  | login r => exact dispatches_login.onReady h r
  | signup r => exact dispatches_signup.onReady h r
  | home r => exact dispatches_home.onReady h r
  | create r =>
      rw [resume_create]
      exact dispatches_create.onReady h r
  | list r => exact dispatches_list.onReady h r

theorem handleRouted_refines (e : Event) {m : Displayed} (h : Tracks m) :
    Option.Rel Mirrors (handleRouted e m) (app.handle e m.ui) := by
  cases e with
  | login e =>
      rw [handle_login]
      exact dispatches_login.onEvent h e
  | signup e =>
      rw [handle_signup]
      exact dispatches_signup.onEvent h e
  | home e =>
      rw [handle_home]
      exact dispatches_home.onEvent h e
  | create e =>
      rw [handle_create]
      exact dispatches_create.onEvent h e
  | list e =>
      rw [handle_list]
      exact dispatches_list.onEvent h e
  | systemBack =>
      obtain ⟨hSame, hTracks⟩ := navigate_refines (tracks_counted h)
        (Dispatched.goBack : Dispatched (counted m.ui) (.main none) .goBack)
      refine .some ⟨?_, hTracks⟩
      exact congrArg (fun out : Ui × List Await => (out.1, ({ effects := out.2 } : Issued Await)))
        hSame.symm

theorem launchRouted_refines {m : Displayed} (h : Tracks m) :
    Mirrors (launchRouted m) (app.launch m.ui) := by
  have hAuth : RouteName.AUTH ∈ mainRouteNames := by decide
  have hNone : List.Forall₂ Shows ([] : List MainRoute).reverse ([] : List Route) := .nil
  have hCommits : Agrees.Commits m.ui (0, 0)
      (renderMain m.ui.nextKey (getInitialState routerOptions mainRouteNames .AUTH m.ui.nextKey))
      (m.ui.mountOver .AUTH (0, 0) []) :=
    h.agrees.commits_fresh (Shows.fresh hAuth m.ui.nextKey (0, 0)) hNone (List.nil_sublist _)
      h.agrees.names.symm rfl rfl
  obtain ⟨hCommit, hAgrees⟩ := hCommits
  simp only [launchRouted, hCommit]
  exact ⟨rfl, hAgrees, hAgrees.rendered_eq⟩

theorem map_of_rel {x : Option (Displayed × Issued Await)} {y : Option (Ui × Issued Await)}
    (h : Option.Rel Mirrors x y) : y = x.map fun out => (out.1.ui, out.2) := by
  cases h with
  | none => rfl
  | some hOut => exact congrArg some hOut.1

theorem tracks_of_rel {x : Option (Displayed × Issued Await)} {y : Option (Ui × Issued Await)}
    (h : Option.Rel Mirrors x y) {out : Displayed × Issued Await} (hOut : x = some out) :
    Tracks out.1 := by
  subst hOut
  cases h with
  | some hRefines => exact hRefines.2

/-- The application over the router, as the one whose navigation is modelled. -/
def asRouted : Morphism routedApp app where
  disk := id
  await := id
  ready := id
  ui m := m.ui
  event := id
  keeps := Tracks
  serve _ _ := rfl
  resume r m h := by
    rw [Issued.map_id]
    exact (resumeRouted_refines r h).1
  handle e m h := by
    simp only [Issued.map_id]
    exact map_of_rel (handleRouted_refines e h)
  launch m h := by
    rw [Issued.map_id]
    exact (launchRouted_refines h).1
  keeps_resume r m h := (resumeRouted_refines r h).2
  keeps_handle e m out h hOut := by
    exact tracks_of_rel (handleRouted_refines e h) hOut
  keeps_launch m h := (launchRouted_refines h).2

theorem tracks_init : Tracks routedInit.ui := by
  have hAgrees : Agrees routedInit.ui.navigation routedInit.ui.ui :=
    { names := rfl
      last := rfl
      shown := .cons (.auth (k := 0) rfl rfl rfl rfl) .nil
      given := by decide
      distinct := by decide }
  exact ⟨hAgrees, hAgrees.rendered_eq⟩

end TaskManager.App
