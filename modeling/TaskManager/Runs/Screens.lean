import TaskManager.Runs.Sessions
import TaskManager.App.SingleRoute
import TaskManager.App.Stack

/-!
# The screen and the session

The store works in the order of issue and nobody opens a task, so the root
stack is one route, `AUTH` or `HOME`.  Five handlers change the session record
or that route, and the two changes of one handler are apart.  What holds at
every moment is about the moment when everything that waits will be done:
`settle` carries the route name, and the record that `HOME` shows, through the
queues.  The main result is `screen_session_agree`: with nothing left to wait
for, `HOME` is shown exactly when a session is stored, and shows it.
-/

namespace TaskManager.Runs

open TaskManager.Verified.JsText
open TaskManager.Verified.EventLoop
open TaskManager.Shared
open TaskManager.Pages
open TaskManager.Routes
open TaskManager.App

/-! ## The three parts of the invariant -/

/-- The record in the session entry has an email, as `info?.email` asks. -/
def Named (d : Disk) : Prop := ∀ record, d.userLoggedIn = some record → record.email ≠ []

/-- Every record that waits to be written to the session entry has an email. -/
def NamedWrite (a : Await) : Prop :=
  ∀ record, sessionWrite a = some (some record) → record.email ≠ []

/-- The launch check finds a session when there is one. -/
theorem Named.hasEmail {d : Disk} (hNamed : Named d) :
    Login.hasEmail d.userLoggedIn = d.userLoggedIn.isSome := by
  cases hSession : d.userLoggedIn with
  | none => rfl
  | some record =>
      have hEmail := hNamed record hSession
      simp [Login.hasEmail, hEmail]

/-- Requests that write sessions with emails leave one with an email. -/
theorem Named.serve {d : Disk} {a : Await} (hNamed : Named d) (ha : NamedWrite a) :
    Named (app.serve a d).1 := by
  intro record hRec
  rw [userLoggedIn_serve] at hRec
  cases hWrite : sessionWrite a with
  | none =>
      rw [hWrite] at hRec
      exact hNamed record hRec
  | some v =>
      rw [hWrite, Option.getD_some] at hRec
      exact ha record (by rw [hWrite, hRec])

/-- The name of the focused route, carried through a continuation. -/
def showName (r : Ready) (name : RouteName) : RouteName := (opens r).getD name

/-- The route agrees with the session.  `check` says that a launch check is
still due. -/
structure Agree (check : Prop) (name : RouteName) (d : Disk) : Prop where
  home : name = .HOME → d.userLoggedIn.isSome = true
  other : name ≠ .HOME → d.userLoggedIn = none ∨ check

/-- What `HOME` shows, carried through a continuation: `none` when another
screen takes its place, or when it is not shown to begin with. -/
def showInfo (key : Nat) (r : Ready) (shown : Option Home.UserInfo) :
    Option Home.UserInfo :=
  if (opens r).isSome then none
  else
    match r with
    | .home (.getUserInfo key' info) =>
        if key = key' then shown.map fun _ => .loaded info else shown
    | _ => shown

/-- What `HOME` shows, when it is the screen. -/
def shownInfo : Screen → Option Home.UserInfo
  | .HOME st => some st.userInfo
  | _ => none

/-- What `HOME` shows is the session. -/
def Informed (shown : Option Home.UserInfo) (d : Disk) : Prop :=
  ∀ info, shown = some info → info = .loaded d.userLoggedIn

/-- Fewer checks to wait for is the stronger statement. -/
theorem Agree.weaken {check check' : Prop} {name : RouteName} {d : Disk}
    (h : Agree check name d) (hCheck : check → check') : Agree check' name d :=
  ⟨h.home, fun hNot => (h.other hNot).imp_right hCheck⟩

/-- A launch check settles the route. -/
theorem Agree.checked {check : Prop} {name : RouteName} {d : Disk} (hNamed : Named d)
    (h : Agree check name d) (key : Nat) :
    Agree False (showName (.login (.isUserLoggedIn key d.userLoggedIn)) name) d := by
  have hOpens : showName (.login (.isUserLoggedIn key d.userLoggedIn)) name =
      if d.userLoggedIn.isSome = true then .HOME else name := by
    rw [← hNamed.hasEmail]
    simp only [showName, opens]
    split <;> rfl
  rw [hOpens]
  cases hSession : d.userLoggedIn with
  | none =>
      refine ⟨fun hHome => ?_, fun _ => Or.inl hSession⟩
      have hSome := h.home hHome
      simp [hSession] at hSome
  | some record => exact ⟨fun _ => by simp [hSession], fun hNot => absurd rfl hNot⟩

/-- Performing and reporting any request keeps the route and the session in
agreement. -/
theorem Agree.serve {check : Prop} {name : RouteName} {d : Disk} (hNamed : Named d)
    (h : Agree check name d) (a : Await) :
    Agree check (showName (app.serve a d).2 name) (app.serve a d).1 := by
  cases a with
  | login a =>
      cases a with
      | isUserLoggedIn key => exact (h.checked hNamed key).weaken False.elim
      | getUsers call => exact h
      | setLoggedIn call record => exact ⟨fun _ => rfl, fun hNot => absurd rfl hNot⟩
  | signup a =>
      cases a with
      | getUsers call => exact h
      | setUsers call data =>
          have hSame : (app.serve (.signup (.setUsers call data)) d).1.userLoggedIn =
              d.userLoggedIn := userLoggedIn_serve _ d
          refine ⟨fun hHome => ?_, fun hNot => ?_⟩
          · rw [hSame]
            exact h.home hHome
          · rw [hSame]
            exact h.other hNot
      | setLoggedIn call => exact ⟨fun _ => rfl, fun hNot => absurd rfl hNot⟩
  | home a =>
      cases a with
      | getUserInfo key => exact h
      | logout id key =>
          have hAuth : showName (app.serve (.home (.logout id key)) d).2 name = .AUTH := rfl
          exact ⟨fun hHome => by simp [hAuth] at hHome, fun _ => Or.inl rfl⟩
  | create a => cases a <;> exact ⟨h.home, h.other⟩
  | list a => cases a <;> exact ⟨h.home, h.other⟩

theorem showInfo_eq_of_load {key : Nat} {r : Ready} (shown : Option Home.UserInfo)
    (hOpens : opens r = none) (hLoad : ∀ info, r ≠ .home (.getUserInfo key info)) :
    showInfo key r shown = shown := by
  simp only [showInfo, hOpens, Option.isSome_none, Bool.false_eq_true, if_false]
  split
  · rename_i key' info
    have hKey : key ≠ key' := by
      rintro rfl
      exact hLoad info rfl
    rw [if_neg hKey]
  · rfl

/-- A load of the session leaves `HOME` informed, whatever it showed. -/
theorem Informed.loaded (key : Nat) (shown : Option Home.UserInfo) (d : Disk) :
    Informed (showInfo key (.home (.getUserInfo key d.userLoggedIn)) shown) d := by
  intro info hInfo
  simp only [showInfo, opens, Option.isSome_none, Bool.false_eq_true, if_false, if_true,
    Option.map_eq_some_iff] at hInfo
  obtain ⟨_, -, rfl⟩ := hInfo
  rfl

theorem Informed.replaced {key : Nat} {r : Ready} (shown : Option Home.UserInfo) (d : Disk)
    (hOpens : (opens r).isSome = true) : Informed (showInfo key r shown) d := by
  intro info hInfo
  simp [showInfo, hOpens] at hInfo

/-- Every write of the session is followed by a change of the route. -/
theorem sessionWrite_of_opens {a : Await} {d : Disk} (h : opens (app.serve a d).2 = none) :
    sessionWrite a = none := by
  cases a with
  | login a =>
      cases a with
      | setLoggedIn call record => simp [app, App.serve, Login.Await.serve, opens] at h
      | isUserLoggedIn key => rfl
      | getUsers call => rfl
  | signup a =>
      cases a with
      | setLoggedIn call => simp [app, App.serve, Signup.Await.serve, opens] at h
      | getUsers call => rfl
      | setUsers call data => rfl
  | home a =>
      cases a with
      | logout id key => simp [app, App.serve, Home.Await.serve, opens] at h
      | getUserInfo key => rfl
  | create a => rfl
  | list a => rfl

/-- Performing and reporting any request keeps `HOME` informed. -/
theorem Informed.serve {key : Nat} {shown : Option Home.UserInfo} {d : Disk}
    (h : Informed shown d) (a : Await) :
    Informed (showInfo key (app.serve a d).2 shown) (app.serve a d).1 := by
  by_cases hOpens : (opens (app.serve a d).2).isSome = true
  · exact Informed.replaced _ _ hOpens
  · have hNone : opens (app.serve a d).2 = none := by simpa using hOpens
    have hWrite : (app.serve a d).1.userLoggedIn = d.userLoggedIn := by
      rw [userLoggedIn_serve, sessionWrite_of_opens hNone]
      rfl
    by_cases hLoad : a = .home (.getUserInfo key)
    · subst hLoad
      exact Informed.loaded key shown d
    · have hOther : ∀ info, (app.serve a d).2 ≠ .home (.getUserInfo key info) := by
        rintro info hEq
        rcases a with a | a | a | a | a <;> cases a <;>
          simp_all [app, App.serve, Home.Await.serve]
      rw [showInfo_eq_of_load _ hNone hOther]
      intro info hInfo
      rw [hWrite]
      exact h info hInfo

/-- The agreement after the requests that wait is the one after all of them are served. -/
theorem Agree.deliver {check : Prop} {name : RouteName} {d : Disk} {as : List Await}
    (hNamed : Named d) (h : Agree check name d) (hWrites : ∀ a ∈ as, NamedWrite a) :
    Agree check (app.deliver showName name d as) (app.drain d as) := by
  have hBoth := app.deliver_invariant showName
    (fun name d => Agree check name d ∧ Named d) ⟨h, hNamed⟩
    fun a ha name d hInv => ⟨hInv.1.serve hInv.2 a, hInv.2.serve (hWrites a ha)⟩
  exact hBoth.1

/-- The shown user is the stored one after all requests are served. -/
theorem Informed.deliver {shown : Option Home.UserInfo} {d : Disk} (h : Informed shown d)
    (key : Nat) (as : List Await) :
    Informed (app.deliver (showInfo key) shown d as) (app.drain d as) :=
  app.deliver_invariant (showInfo key) Informed h fun a _ _ _ hInv => hInv.serve a

/-! ## Following the focused route -/

@[simp] theorem shownInfo_onLogin (f : Login.State → Login.State) (screen : Screen) :
    shownInfo (screen.onLogin f) = shownInfo screen := by
  unfold Screen.onLogin
  split <;> rfl

@[simp] theorem shownInfo_onSignup (f : Signup.State → Signup.State) (screen : Screen) :
    shownInfo (screen.onSignup f) = shownInfo screen := by
  unfold Screen.onSignup
  split <;> rfl

@[simp] theorem shownInfo_onCreate (f : TaskCreation.State → TaskCreation.State)
    (screen : Screen) : shownInfo (screen.onCreate f) = shownInfo screen := by
  unfold Screen.onCreate
  split <;> rfl

@[simp] theorem shownInfo_onList (f : MembersList.State → MembersList.State)
    (screen : Screen) : shownInfo (screen.onList f) = shownInfo screen := by
  unfold Screen.onList
  split <;> rfl

/-- A callback tells a screen of the user that it reads. -/
theorem shownInfo_told {r : Ready} (key : Nat) (screen : Screen) (hOpens : opens r = none) :
    shownInfo (told r key screen) = showInfo key r (shownInfo screen) := by
  by_cases hLoad : ∃ info, r = .home (.getUserInfo key info)
  · obtain ⟨info, rfl⟩ := hLoad
    cases screen <;>
      simp [told, Home.Ready.key, Home.Ready.resume, Screen.onHome, shownInfo, showInfo, opens]
  · rw [showInfo_eq_of_load _ hOpens fun info hEq => hLoad ⟨info, hEq⟩]
    unfold told
    split
    · split <;> simp
    · split <;> simp
    · rename_i r
      cases r with
      | logout id key' => simp [opens] at hOpens
      | getUserInfo key' info =>
          rw [if_neg]
          rintro rfl
          exact hLoad ⟨info, rfl⟩
    · split <;> simp
    · rfl
    · split <;> simp

theorem follow_info {r : Ready} {ui : Ui} (hBelow : ui.below = []) (hOpens : opens r = none) :
    shownInfo (app.resume r ui).1.focused.screen =
      showInfo ui.focused.key r (shownInfo ui.focused.screen) := by
  rw [(resume_stays hBelow hOpens).screen, shownInfo_told _ _ hOpens]

/-- `LOGIN` loads after a continuation only if it did before, and the
continuation was not its own launch check. -/
theorem told_loading {r : Ready} {key : Nat} {screen : Screen} {st : Login.State}
    (h : told r key screen = .AUTH (.LOGIN st)) (hLoading : st.isLoading = true) :
    ∃ st', screen = .AUTH (.LOGIN st') ∧ st'.isLoading = true ∧
      ∀ info, r ≠ .login (.isUserLoggedIn key info) := by
  have hName := name_told r key screen
  rw [h] at hName
  rcases screen with (s | s) | s | s | s
  · refine ⟨s, rfl, ?_⟩
    cases r with
    | login r =>
        by_cases hKey : key = r.key
        · have hSet : r.resume.update s = st := by
            simpa [told, Screen.onLogin, hKey] using h
          cases r with
          | isUserLoggedIn key' info =>
              rw [← hSet] at hLoading
              simp [Login.Ready.resume] at hLoading
          | getUsers call data =>
              refine ⟨?_, by simp⟩
              rw [← hSet] at hLoading
              rcases Login.afterUsers_cases call data with ⟨-, hEff⟩ | ⟨user, -, -, hEff⟩
              · simpa [Login.Ready.resume, hEff] using hLoading
              · simpa [Login.Ready.resume, hEff] using hLoading
          | setLoggedIn call record =>
              have hSame : s = st := hSet
              exact ⟨hSame ▸ hLoading, by simp⟩
        · have hSame : s = st := by simpa [told, hKey] using h
          refine ⟨hSame ▸ hLoading, ?_⟩
          rintro info hEq
          cases hEq
          exact hKey rfl
    | signup r => exact ⟨by simp_all [told, Screen.onSignup], by simp⟩
    | home r => exact ⟨by simp_all [told, Screen.onHome], by simp⟩
    | create r => cases r <;> exact ⟨by simp_all [told, Screen.onCreate], by simp⟩
    | list r => exact ⟨by simp_all [told, Screen.onList], by simp⟩
  · exfalso
    unfold told at h
    repeat' split at h
    all_goals simp [Screen.onLogin, Screen.onSignup, Screen.onHome, Screen.onCreate,
      Screen.onList] at h
  · simp [Screen.name] at hName
  · simp [Screen.name] at hName
  · simp [Screen.name] at hName

/-! ## The invariant -/

/-- The launch check of the screen instance `key` is due, or on its way. -/
def Checking (key : Nat) (s : State) : Prop :=
  .login (.isUserLoggedIn key) ∈ s.effects ∨ .login (.isUserLoggedIn key) ∈ s.pending ∨
    ∃ info, .login (.isUserLoggedIn key info) ∈ s.served

/-- Where the screen and the session are going. -/
structure Settling (s : State) : Prop where
  one : OneScreen s.ui
  route : Agree (∃ key, .login (.isUserLoggedIn key) ∈ s.effects)
    (app.settle showName s.ui.focused.screen.name s) (app.settleDisk s)
  info : s.ui.focused.screen.name = .HOME →
    .home (.getUserInfo s.ui.focused.key) ∈ s.effects ∨
      Informed (app.settle (showInfo s.ui.focused.key) (shownInfo s.ui.focused.screen) s)
        (app.settleDisk s)
  loading : ∀ st, s.ui.focused.screen = .AUTH (.LOGIN st) → st.isLoading = true →
    Checking s.ui.focused.key s

/-- A check stays under way until its continuation runs. -/
theorem Checking.step {key : Nat} {s s' : State} {x : Action} (h : Checking key s)
    (hx : app.Step s x s') (hKill : x ≠ .kill) (hReject : ∀ i, x ≠ .reject i)
    (hWait : ∀ i info, x = .resolve i →
      s.served[i]? ≠ some (.login (.isUserLoggedIn key info))) : Checking key s' := by
  rcases h with hDue | hAsked | ⟨info, hTold⟩
  · by_cases hRuns : ∃ i, x = .effect i ∧
        s.effects[i]? = some (.login (.isUserLoggedIn key))
    · obtain ⟨i, rfl, hAt⟩ := hRuns
      cases hx with
      | effect hAt' =>
          rw [hAt, Option.some.injEq] at hAt'
          subst hAt'
          exact Or.inr (Or.inl (List.mem_append_right _ (List.mem_singleton_self _)))
    · exact Or.inl (hx.mem_effects hDue (fun i hi hAt => hRuns ⟨i, hi, hAt⟩) hKill)
  · by_cases hServed : ∃ i, x = .serve i ∧
        s.pending[i]? = some (.login (.isUserLoggedIn key))
    · obtain ⟨i, rfl, hAt⟩ := hServed
      cases hx with
      | serve hAt' =>
          rw [hAt, Option.some.injEq] at hAt'
          subst hAt'
          exact Or.inr (Or.inr ⟨_, List.mem_append_right _ (List.mem_singleton_self _)⟩)
    · exact Or.inr (Or.inl (hx.mem_pending hAsked
        (fun i hi hAt => hServed ⟨i, hi, hAt⟩) (fun i hi => absurd hi (hReject i)) hKill))
  · exact Or.inr (Or.inr ⟨info, hx.mem_served hTold (fun i hi => hWait i info hi) hKill⟩)

/-- A press keeps the agreement, with what it has issued at the end of the queue. -/
theorem Settling.user {s : State} {e : Event} {out : Ui × Issued Await}
    (hInv : Settling s) (hNamed : Named (app.settleDisk s)) (hTask : NoTask e)
    (hOut : app.handle e s.ui = some out) (hWrites : ∀ a ∈ out.2.requests, NamedWrite a) :
    Settling (s.issue out) := by
  have hCases := handle_remains_or_mounts hInv.one hTask hOut
  have hName := name_handle hInv.one hTask hOut
  refine ⟨hInv.one.handle hTask hOut, ?_, ?_, ?_⟩
  · rw [Program.settle_issue, Program.settleDisk_issue]
    have hRoute := hInv.route.deliver hNamed hWrites
    rw [← hName] at hRoute
    exact hRoute.weaken fun ⟨key, hDue⟩ => ⟨key, List.mem_append_left _ hDue⟩
  · intro hHome
    rcases hCases with hSame | ⟨hAuth, -⟩
    · have hScreen : shownInfo out.1.focused.screen = shownInfo s.ui.focused.screen := by
        cases hNew : out.1.focused.screen with
        | HOME st => rw [hSame.home st hNew]
        | AUTH st => simp [State.issue, hNew, Screen.name] at hHome
        | CREATE st => simp [State.issue, hNew, Screen.name] at hHome
        | LIST st => simp [State.issue, hNew, Screen.name] at hHome
      rcases hInv.info (hName.symm.trans hHome) with hDue | hInfo
      · left
        simp only [State.issue]
        rw [hSame.key]
        exact List.mem_append_left _ hDue
      · right
        rw [Program.settle_issue, Program.settleDisk_issue]
        simp only [State.issue]
        rw [hScreen, hSame.key]
        exact hInfo.deliver _ _
    · exact absurd (hHome.symm.trans (hName.trans hAuth)) (by simp)
  · intro st hScreen hLoading
    rcases hCases with hSame | ⟨-, hMount | hMount⟩
    · obtain ⟨st', hOld, hEq⟩ := hSame.login st hScreen
      have hCheck := hInv.loading st' hOld (hEq ▸ hLoading)
      simp only [State.issue]
      rw [hSame.key]
      exact hCheck.step (.user hOut) (by simp) (by simp) (by simp)
    · left
      have hEffects := hMount.effects
      simp only [State.issue] at hScreen ⊢
      rw [hEffects, Route.mountEffects, hScreen]
      simp
    · simp [State.issue, hMount.focused, Screen.mount] at hScreen

/-- An effect puts its read at the end of the queue. -/
theorem Settling.effect {s : State} {i : Nat} {a : Await} (hInv : Settling s)
    (hNamed : Named (app.settleDisk s)) (hAt : s.effects[i]? = some a) :
    Settling { s with effects := s.effects.eraseIdx i, pending := s.pending ++ [a] } := by
  refine ⟨hInv.one, ?_, ?_, ?_⟩
  · rw [Program.settle_effect, Program.settleDisk_effect]
    by_cases hCheck : ∃ key, a = .login (.isUserLoggedIn key)
    · obtain ⟨key, rfl⟩ := hCheck
      exact (hInv.route.checked hNamed key).weaken False.elim
    · refine (hInv.route.serve hNamed a).weaken ?_
      rintro ⟨key, hDue⟩
      refine ⟨key, Program.mem_eraseIdx_of_ne hDue hAt ?_⟩
      rintro rfl
      exact hCheck ⟨key, rfl⟩
  · intro hHome
    rw [Program.settle_effect, Program.settleDisk_effect]
    by_cases hLoad : a = .home (.getUserInfo s.ui.focused.key)
    · subst hLoad
      exact Or.inr (Informed.loaded _ _ _)
    · rcases hInv.info hHome with hDue | hInfo
      · exact Or.inl (Program.mem_eraseIdx_of_ne hDue hAt (Ne.symm hLoad))
      · exact Or.inr (hInfo.serve a)
  · intro st hScreen hLoading
    exact (hInv.loading st hScreen hLoading).step (.effect hAt) (by simp) (by simp) (by simp)

/-- Serving the head of the queue is what the agreement looks ahead to. -/
theorem Settling.serve {s : State} {a : Await} {as : List Await} (hInv : Settling s)
    (hPending : s.pending = a :: as) : Settling (app.serveHead s a as) := by
  refine ⟨hInv.one, ?_, ?_, ?_⟩
  · rw [Program.settle_serve hPending, Program.settleDisk_serve hPending]
    exact hInv.route
  · intro hHome
    rw [Program.settle_serve hPending, Program.settleDisk_serve hPending]
    exact hInv.info hHome
  · intro st hScreen hLoading
    exact (hInv.loading st hScreen hLoading).step (Program.step_serveHead hPending)
      (by simp) (by simp) (by simp)

/-- A continuation keeps the route in agreement, whatever it shows. -/
theorem Settling.resolve_route {s : State} {r : Ready} {rs : List Ready}
    (hInv : Settling s) (hNamed : Named (app.settleDisk s)) (hServed : s.served = r :: rs)
    (hWrites : ∀ a ∈ (app.resume r s.ui).2.requests, NamedWrite a) :
    Agree (∃ key, .login (.isUserLoggedIn key) ∈
        ({ s with served := rs }.issue (app.resume r s.ui)).effects)
      (app.settle showName (app.resume r s.ui).1.focused.screen.name
        ({ s with served := rs }.issue (app.resume r s.ui)))
      (app.settleDisk ({ s with served := rs }.issue (app.resume r s.ui))) := by
  have hSettle := Program.settle_continue (P := app) showName
    (fun ui => ui.focused.screen.name) hServed (name_resume hInv.one.below)
  have hRoute := hInv.route.deliver hNamed hWrites
  rw [hSettle, Program.settleDisk_issue]
  exact hRoute.weaken fun ⟨key, hDue⟩ => ⟨key, List.mem_append_left _ hDue⟩

/-- The oldest continuation runs, and moves to the screen that is due. -/
theorem Settling.resolve {s : State} {r : Ready} {rs : List Ready} (hInv : Settling s)
    (hNamed : Named (app.settleDisk s)) (hServed : s.served = r :: rs)
    (hWrites : ∀ a ∈ (app.resume r s.ui).2.requests, NamedWrite a) :
    Settling ({ s with served := rs }.issue (app.resume r s.ui)) := by
  have hBelow := hInv.one.below
  have hRoute := hInv.resolve_route hNamed hServed hWrites
  cases hOpens : opens r with
  | none =>
      have hStays := resume_stays hBelow hOpens
      have hName : (app.resume r s.ui).1.focused.screen.name = s.ui.focused.screen.name := by
        rw [hStays.screen, name_told]
      refine ⟨hInv.one.resume, hRoute, ?_, ?_⟩
      · intro hHome
        rcases hInv.info (hName.symm.trans hHome) with hDue | hInfo
        · left
          simp only [State.issue]
          rw [hStays.key]
          exact List.mem_append_left _ hDue
        · right
          have hSettle := Program.settle_continue (P := app) (showInfo s.ui.focused.key)
            (fun ui => shownInfo ui.focused.screen) hServed (follow_info hBelow hOpens)
          rw [Program.settleDisk_issue]
          have hNext := hInfo.deliver s.ui.focused.key (app.resume r s.ui).2.requests
          rw [← hSettle, ← hStays.key] at hNext
          exact hNext
      · intro st hScreen hLoading
        obtain ⟨st', hOld, hLoading', hOther⟩ :=
          told_loading (hStays.screen.symm.trans hScreen) hLoading
        have hCheck := (hInv.loading st' hOld hLoading').step
          (Program.step_resolveHead hServed) (by simp) (by simp) (by
            intro i info hi
            obtain rfl : 0 = i := by simpa using hi
            simpa [hServed] using hOther info)
        rw [← hStays.key] at hCheck
        exact hCheck
  | some name =>
      have hMount := resume_opens hBelow hOpens
      have hFocused := hMount.focused
      have hDue : ∀ a ∈ (app.resume r s.ui).1.focused.mountEffects,
          a ∈ ({ s with served := rs }.issue (app.resume r s.ui)).effects := by
        intro a ha
        exact List.mem_append_right _ (by rwa [hMount.effects])
      rcases opens_cases hOpens with rfl | rfl
      · refine ⟨hInv.one.resume, hRoute, ?_, ?_⟩
        · intro _
          left
          refine hDue _ ?_
          rw [Route.mountEffects, hFocused]
          simp [State.issue, hFocused, Screen.mount]
        · intro st hScreen
          simp [State.issue, hFocused, Screen.mount] at hScreen
      · refine ⟨hInv.one.resume, hRoute, ?_, ?_⟩
        · intro hHome
          simp [State.issue, hFocused, Screen.mount, Screen.name] at hHome
        · intro st _ _
          left
          refine hDue _ ?_
          rw [Route.mountEffects, hFocused]
          simp [State.issue, hFocused, Screen.mount]

/-- A relaunch starts with the check. -/
theorem Settling.kill {s : State} : Settling (app.boot s.disk s.ui) := by
  have hAuth : (app.boot s.disk s.ui).ui.focused.screen.name = .AUTH := rfl
  refine ⟨⟨rfl, Or.inl hAuth⟩, ?_, ?_, ?_⟩
  · rw [Program.settle_idle rfl rfl, hAuth]
    exact ⟨by simp, fun _ => Or.inr ⟨s.ui.nextKey, List.mem_singleton_self _⟩⟩
  · intro hHome
    simp [hAuth] at hHome
  · intro st hScreen hLoading
    exact Or.inl (List.mem_singleton_self _)

/-! ## Runs -/

/-- The steps of a session: the store works in the order of issue, and nobody
opens a task. -/
def SessionStep (x : Action) : Prop := x.InOrder ∧ ∀ e, x = .user e → NoTask e

/-- A submit was pressed with an email in the field. -/
theorem Submits.email_ne_nil {p : State × Action} {submit : Submit} (h : Submits p submit) :
    submit.email ≠ [] := by
  cases h with
  | login _ hAcc => exact ((Login.accepted_iff _).mp hAcc).1
  | signup _ hAcc => exact ((Signup.accepted_iff _).mp hAcc).1

/-- A record that a submit may write has an email. -/
theorem Entitled.email_ne_nil {h : History} {submit : Submit} {record : Account}
    (hEntitled : Entitled h submit record) : record.email ≠ [] := by
  obtain ⟨p, -, hPress⟩ := hEntitled.pressed
  rw [← hEntitled.email]
  exact hPress.email_ne_nil

/-- In every run the session has an email, and so have the writes that wait. -/
theorem named_run {xs : List Action} {s : State} (hRun : run xs = some s) :
    Named s.disk ∧ ∀ a ∈ s.pending, NamedWrite a := by
  refine ⟨?_, ?_⟩
  · intro record hRec
    obtain ⟨_, _, _, _, -, -, -, hEntitled⟩ := sessionOrigin_run hRun record hRec
    exact hEntitled.email_ne_nil
  · intro a ha record hWrite
    obtain ⟨submit, hRequest⟩ := sessionWrite_eq_some hWrite
    obtain ⟨i, hAt⟩ := List.getElem?_of_mem ha
    exact (entitled_of_pending ⟨xs, hRun, rfl⟩ hAt hRequest).email_ne_nil

theorem named_settleDisk {xs : List Action} {s : State} (hRun : run xs = some s) :
    Named (app.settleDisk s) := by
  obtain ⟨hDisk, hPending⟩ := named_run hRun
  exact app.drain_invariant Named hDisk fun a ha _ hd => hd.serve (hPending a ha)

theorem settling_init : Settling init := by
  refine ⟨⟨rfl, Or.inl rfl⟩, ?_, ?_, ?_⟩
  · rw [Program.settle_idle rfl rfl]
    exact ⟨by simp [init, Ui.first, Screen.name], fun _ => Or.inl rfl⟩
  · intro hHome
    simp [init, Ui.first, Screen.name] at hHome
  · intro st hScreen hLoading
    exact Or.inl (List.mem_singleton_self _)

/-- Every run of session steps keeps the agreement. -/
theorem settling_run {xs : List Action} {s : State} (hRun : run xs = some s)
    (hSteps : ∀ x ∈ xs, SessionStep x) : Settling s := by
  refine app.exec_induction (fun _ x => SessionStep x) (fun _ s => Settling s) settling_init
    ?_ (fun p hp => hSteps p.2 (app.mem_of_mem_trace hp)) hRun
  rintro h s x s' ⟨ys, hPre, -⟩ ⟨hOrder, hTask⟩ hInv hx
  have hNamed := named_settleDisk hPre
  have hWrites := (named_run (app.exec_snoc hPre hx)).2
  cases hx.ordered hOrder with
  | @user e out hOut =>
      exact hInv.user hNamed (hTask e rfl) hOut fun a ha =>
        hWrites a (List.mem_append_right _ ha)
  | effect hAt => exact hInv.effect hNamed hAt
  | serve hPending => exact hInv.serve hPending
  | resolve hServed =>
      exact hInv.resolve hNamed hServed fun a ha => hWrites a (List.mem_append_right _ ha)
  | kill => exact .kill

/-- With nothing left to wait for, `HOME` is shown exactly when a session is
stored. -/
theorem Settling.home_iff {s : State} (hInv : Settling s) (hQuiet : s.Quiescent) :
    s.ui.focused.screen.name = .HOME ↔ s.disk.userLoggedIn.isSome = true := by
  have hRoute := hInv.route
  rw [Program.settle_idle hQuiet.pending hQuiet.served,
    Program.settleDisk_idle hQuiet.pending] at hRoute
  have hNoCheck : ¬ ∃ key, .login (.isUserLoggedIn key) ∈ s.effects := by
    simp [hQuiet.effects]
  refine ⟨hRoute.home, fun hSome => ?_⟩
  by_contra hNot
  rcases hRoute.other hNot with hNone | hCheck
  · simp [hNone] at hSome
  · exact hNoCheck hCheck

/-- With nothing left to wait for, `LOGIN` does not load. -/
theorem Settling.isLoading {s : State} (hInv : Settling s) (hQuiet : s.Quiescent)
    {st : Login.State} (hScreen : s.ui.focused.screen = .AUTH (.LOGIN st)) :
    st.isLoading = false := by
  by_contra hNot
  rw [Bool.not_eq_false] at hNot
  rcases hInv.loading st hScreen hNot with hDue | hAsked | ⟨info, hTold⟩
  · simp [hQuiet.effects] at hDue
  · simp [hQuiet.pending] at hAsked
  · simp [hQuiet.served] at hTold

/-- **The screen and the session agree.**  Whatever was pressed, however the
presses overlapped and wherever the process was killed: when nothing waits any
more, `HOME` is shown exactly when a session is stored, what it shows is that
session, and `LOGIN`, when shown, does not load. -/
theorem screen_session_agree (xs : List Action) (s : State) (hRun : run xs = some s)
    (hSteps : ∀ x ∈ xs, SessionStep x) (hQuiet : s.Quiescent) :
    (s.ui.focused.screen.name = .HOME ↔ s.disk.userLoggedIn.isSome = true) ∧
      (∀ st, s.ui.focused.screen = .HOME st →
        ∃ record, s.disk.userLoggedIn = some record ∧ st.userInfo = .loaded (some record)) ∧
      ∀ st, s.ui.focused.screen = .AUTH (.LOGIN st) → st.isLoading = false := by
  have hInv := settling_run hRun hSteps
  have hIff := hInv.home_iff hQuiet
  refine ⟨hIff, ?_, fun st hScreen => hInv.isLoading hQuiet hScreen⟩
  intro st hScreen
  have hHome : s.ui.focused.screen.name = .HOME := by rw [hScreen]; rfl
  obtain ⟨record, hRec⟩ := Option.isSome_iff_exists.mp (hIff.mp hHome)
  refine ⟨record, hRec, ?_⟩
  rcases hInv.info hHome with hDue | hInfo
  · simp [hQuiet.effects] at hDue
  · rw [Program.settle_idle hQuiet.pending hQuiet.served,
      Program.settleDisk_idle hQuiet.pending] at hInfo
    rw [← hRec]
    exact hInfo st.userInfo (by rw [hScreen]; rfl)

/-- Ann has signed up, and `HOME` has loaded. -/
def annAtHome : List Action := annSignedUp ++ loaded

/-- Ann has signed up as a member and left, and Cat as an administrator: `HOME`
offers her a new task. -/
def catAtHome : List Action :=
  annAtHome ++ logOut ++ signUp (js "cat@x.co") (js "pw") (js "Cat") true

/-- Ann is at HOME, and her session is stored. -/
theorem screen_session_agree_ann :
    ∃ s, run annAtHome = some s ∧ s.ui.focused.screen.name = .HOME ∧
      s.disk.userLoggedIn.isSome = true := by
  obtain ⟨s, hRun⟩ := Option.isSome_iff_exists.mp
    (show (run annAtHome).isSome = true by decide)
  have hQueues : (run annAtHome).map (fun s => (s.effects, s.pending, s.served)) =
      some ([], [], []) := by decide
  have hSession : (run annAtHome).map (fun s => s.disk.userLoggedIn.isSome) = some true := by
    decide
  rw [hRun, Option.map_some, Option.some.injEq] at hQueues hSession
  simp only [Prod.mk.injEq] at hQueues
  have hSteps : ∀ x ∈ annAtHome, SessionStep x := by
    simp [annAtHome, annSignedUp, loaded, answered, fillSignup, openSignup, pressSignup,
      SessionStep, Action.InOrder, NoTask]
  have hAgree := (screen_session_agree annAtHome s hRun hSteps
    ⟨hQueues.1, hQueues.2.1, hQueues.2.2⟩).1
  exact ⟨s, hRun, hAgree.mpr hSession, hSession⟩

end TaskManager.Runs
