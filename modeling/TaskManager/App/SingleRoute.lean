import TaskManager.App.Stack

/-!
# A single route

As long as nobody opens a task, the root stack is one route, `AUTH` or `HOME`.
This file says what a step does to it:

* `resume_opens`, `resume_stays` — a continuation replaces the route by a fresh
  one, or changes nothing but its state;
* `handle_remains_or_mounts` — a user event leaves the route in place, or turns
  `AUTH` to its other screen.
-/

namespace TaskManager.App

open TaskManager.Shared
open TaskManager.Pages
open TaskManager.Routes
open TaskManager.Verified.EventLoop

/-! ## Continuations -/

/-- The route a continuation replaces the stack by. -/
def opens : Ready → Option RouteName
  | .login (.isUserLoggedIn _ info) => if Login.hasEmail info then some .HOME else none
  | .login (.setLoggedIn _ _) => some .HOME
  | .signup (.setLoggedIn _) => some .HOME
  | .home (.logout _ _) => some .AUTH
  | _ => none

/-- The root stack is one route, and no task screen. -/
structure OneScreen (ui : Ui) : Prop where
  below : ui.below = []
  name : ui.focused.screen.name = .AUTH ∨ ui.focused.screen.name = .HOME

/-- The focused route has just been mounted, and its mount effect is due. -/
structure Mounted (key : Nat) (name : RouteName) (out : Ui × Issued Await) : Prop where
  focused : out.1.focused = ⟨key, Screen.mount (0, 0) name⟩
  below : out.1.below = []
  effects : out.2.effects = out.1.focused.mountEffects

/-- `replace` and `reset` mount a route alone on the stack; the setters of the
handler that asked for it do not reach the new screen. -/
theorem mounted_perform {σ α : Type} {lift : (σ → σ) → Screen → Screen}
    (wrap : α → Await) (key : Nat) {eff : Effect σ α} {ui : Ui} {name : RouteName}
    (hBelow : ui.below = [])
    (hNav : eff.navigate = some (.replace name) ∨ eff.navigate = some (.reset name))
    (hFresh : lift eff.update (Screen.mount (0, 0) name) = Screen.mount (0, 0) name) :
    Mounted ui.nextKey name (ui.perform lift wrap key eff) := by
  have hMove : (ui.perform lift wrap key eff).1 =
        (ui.mountOver name (0, 0) []).1.modify key (lift eff.update) ∧
      (ui.perform lift wrap key eff).2.effects = (ui.mountOver name (0, 0) []).2 := by
    rcases hNav with hNav | hNav <;> simp [Ui.perform, hNav, Ui.navigate, hBelow]
  have hFocused : (ui.perform lift wrap key eff).1.focused =
      ⟨ui.nextKey, Screen.mount (0, 0) name⟩ := by
    rw [hMove.1]
    simp [Ui.modify, Ui.mountOver, hFresh]
  refine ⟨hFocused, ?_, ?_⟩
  · rw [hMove.1]
    rfl
  · rw [hMove.2, hFocused]
    rfl

/-- A continuation that opens a route mounts it alone. -/
theorem resume_opens {r : Ready} {ui : Ui} {name : RouteName} (hBelow : ui.below = [])
    (h : opens r = some name) : Mounted ui.nextKey name (app.resume r ui) := by
  unfold opens at h
  split at h
  · rename_i key info
    cases hInfo : Login.hasEmail info with
    | false => simp [hInfo] at h
    | true =>
        obtain rfl : RouteName.HOME = name := by simpa [hInfo] using h
        rw [resume_login]
        exact mounted_perform _ _ hBelow (Or.inl (by simp [Login.Ready.resume, hInfo])) rfl
  · obtain rfl : RouteName.HOME = name := by simpa using h
    rw [resume_login]
    exact mounted_perform _ _ hBelow (Or.inl rfl) rfl
  · obtain rfl : RouteName.HOME = name := by simpa using h
    rw [resume_signup]
    exact mounted_perform _ _ hBelow (Or.inl rfl) rfl
  · obtain rfl : RouteName.AUTH = name := by simpa using h
    rw [resume_home]
    exact mounted_perform _ _ hBelow (Or.inr rfl) rfl
  · simp at h

/-- The focused route stays where it is, and only its own state may change. -/
structure Stays (r : Ready) (ui : Ui) (out : Ui × Issued Await) : Prop where
  key : out.1.focused.key = ui.focused.key
  screen : out.1.focused.screen = told r ui.focused.key ui.focused.screen
  below : out.1.below = []
  effects : out.2.effects = []

/-- A stretch that does not move the stack changes its own screen alone. -/
theorem stays_perform {σ α : Type} {lift : (σ → σ) → Screen → Screen}
    (wrap : α → Await) {key : Nat} {eff : Effect σ α} {ui : Ui} {r : Ready}
    (hBelow : ui.below = []) (hNav : eff.navigate = none ∨ eff.navigate = some .goBack)
    (hTold : told r ui.focused.key ui.focused.screen =
      if ui.focused.key = key then lift eff.update ui.focused.screen
      else ui.focused.screen) :
    Stays r ui (ui.perform lift wrap key eff) := by
  have hMove : (ui.perform lift wrap key eff).1 = ui.modify key (lift eff.update) ∧
      (ui.perform lift wrap key eff).2.effects = [] := by
    rcases hNav with hNav | hNav <;> simp [Ui.perform, hNav, Ui.navigate, hBelow]
  have hFocused : (ui.modify key (lift eff.update)).focused =
      ⟨ui.focused.key, told r ui.focused.key ui.focused.screen⟩ := by
    rw [hTold]
    by_cases hKey : ui.focused.key = key
    · simp [Ui.modify, hKey]
    · simp [Ui.modify, hKey]
  refine ⟨?_, ?_, ?_, hMove.2⟩
  · rw [hMove.1, hFocused]
  · rw [hMove.1, hFocused]
  · rw [hMove.1]
    simp [Ui.modify, hBelow]

/-- A continuation that opens nothing leaves the route in place. -/
theorem resume_stays {r : Ready} {ui : Ui} (hBelow : ui.below = []) (h : opens r = none) :
    Stays r ui (app.resume r ui) := by
  cases r with
  | login r =>
      rw [resume_login]
      refine stays_perform _ hBelow (Or.inl ?_) rfl
      cases r with
      | isUserLoggedIn key info =>
          have hInfo : Login.hasEmail info = false := by simpa [opens] using h
          simp [Login.Ready.resume, hInfo]
      | getUsers call data =>
          obtain ⟨-, hEff⟩ | ⟨user, -, -, hEff⟩ := Login.afterUsers_cases call data
          · simp [Login.Ready.resume, hEff]
          · simp [Login.Ready.resume, hEff]
      | setLoggedIn call record => simp [opens] at h
  | signup r =>
      rw [resume_signup]
      refine stays_perform _ hBelow (Or.inl ?_) rfl
      cases r with
      | getUsers call data =>
          obtain ⟨-, hEff⟩ | ⟨-, hEff⟩ := Signup.afterUsers_cases call data
          · simp [Signup.Ready.resume, hEff]
          · simp [Signup.Ready.resume, hEff]
      | setUsers call => rfl
      | setLoggedIn call => simp [opens] at h
  | home r =>
      rw [resume_home]
      refine stays_perform _ hBelow (Or.inl ?_) rfl
      cases r with
      | getUserInfo key info => rfl
      | logout id key => simp [opens] at h
  | create r =>
      cases r with
      | fetchMembers key list =>
          rw [resume_fetchMembers]
          exact stays_perform _ hBelow (Or.inl rfl) rfl
      | handleBack => exact ⟨rfl, rfl, hBelow, rfl⟩
  | list r =>
      rw [resume_list]
      refine stays_perform _ hBelow ?_ rfl
      cases r with
      | getDraft key list =>
          refine Or.inl ?_
          rcases list with _ | _ | ⟨m, ms⟩ <;> rfl
      | getMembers key list => exact Or.inl rfl
      | handleSubmit key => exact Or.inr rfl

/-- `LOGIN` loads until a continuation of its own launch check. -/
theorem told_login (r : Ready) (key : Nat) {st : Login.State} (hLoading : st.isLoading = true)
    (hOther : ∀ info, r ≠ .login (.isUserLoggedIn key info)) :
    ∃ st', told r key (.AUTH (.LOGIN st)) = .AUTH (.LOGIN st') ∧ st'.isLoading = true := by
  cases r with
  | login r =>
      by_cases hKey : key = r.key
      · refine ⟨r.resume.update st, by simp [told, hKey, Screen.onLogin], ?_⟩
        cases r with
        | isUserLoggedIn key' info => exact absurd rfl (hKey ▸ hOther info)
        | getUsers call data =>
            obtain ⟨-, hEff⟩ | ⟨user, -, -, hEff⟩ := Login.afterUsers_cases call data
            · simpa [Login.Ready.resume, hEff] using hLoading
            · simpa [Login.Ready.resume, hEff] using hLoading
        | setLoggedIn call record => exact hLoading
      · exact ⟨st, by simp [told, hKey], hLoading⟩
  | signup r => exact ⟨st, by simp [told, Screen.onSignup], hLoading⟩
  | home r => exact ⟨st, by simp [told, Screen.onHome], hLoading⟩
  | create r => cases r <;> exact ⟨st, by simp [told, Screen.onCreate], hLoading⟩
  | list r => exact ⟨st, by simp [told, Screen.onList], hLoading⟩

/-! ## User events -/

/-- The user does not open a task. -/
def NoTask : Event → Prop
  | .home (.createTask _) => False
  | _ => True

instance (e : Event) : Decidable (NoTask e) := by
  unfold NoTask
  split <;> infer_instance

/-- The focused route stays where it is; on `HOME` nothing changes, and on
`LOGIN` the loading neither starts nor ends. -/
structure Remains (ui : Ui) (out : Ui × Issued Await) : Prop where
  key : out.1.focused.key = ui.focused.key
  name : out.1.focused.screen.name = ui.focused.screen.name
  home : ∀ st, out.1.focused.screen = .HOME st → ui.focused.screen = .HOME st
  login : ∀ st, out.1.focused.screen = .AUTH (.LOGIN st) →
    ∃ st', ui.focused.screen = .AUTH (.LOGIN st') ∧ st.isLoading = st'.isLoading
  below : out.1.below = []
  effects : out.2.effects = []

/-- The focused route stays, or `AUTH` turns to its other screen. -/
theorem handle_remains_or_mounts {ui : Ui} {e : Event} {out : Ui × Issued Await}
    (hOne : OneScreen ui) (hTask : NoTask e) (h : app.handle e ui = some out) :
    Remains ui out ∨ (ui.focused.screen.name = .AUTH ∧
      (Mounted ui.nextKey .LOGIN out ∨ Mounted ui.nextKey .SIGNUP out)) := by
  have hBelow := hOne.below
  have hCounted : (counted ui).below = [] := hOne.below
  cases handle_cases h with
  | @login s e eff hs hEff =>
      have hName : ui.focused.screen.name = .AUTH := by rw [hs]; rfl
      rcases Login.handle_navigate hEff with hNav | hNav
      · left
        constructor <;>
          simp [Ui.perform, hNav, counted, Ui.modify, hs, hBelow, Screen.onLogin, Screen.name,
            Login.handle_isLoading hEff]
      · exact Or.inr ⟨hName, Or.inr (mounted_perform _ _ hCounted (Or.inl hNav) rfl)⟩
  | @signup s e hs =>
      have hName : ui.focused.screen.name = .AUTH := by rw [hs]; rfl
      rcases Signup.handle_navigate ui.focused.key ui.nextCall s e with hNav | hNav
      · left
        constructor <;>
          simp [Ui.perform, hNav, counted, Ui.modify, hs, hBelow, Screen.onSignup, Screen.name]
      · exact Or.inr ⟨hName, Or.inl (mounted_perform _ _ hCounted (Or.inl hNav) rfl)⟩
  | @home s e hs =>
      cases e with
      | logout =>
          left
          constructor <;>
            simp [Ui.perform, Home.handle, counted, Ui.modify, hs, hBelow, Screen.onHome,
              Screen.name]
      | createTask dates => exact absurd hTask id
  | create hs => exact absurd hOne.name (by simp [hs, Screen.name])
  | list hs _ => exact absurd hOne.name (by simp [hs, Screen.name])
  | systemBack =>
      have hStill : (counted ui).navigate .goBack = (counted ui, []) := by
        simp [Ui.navigate, hCounted]
      rw [hStill]
      exact Or.inl ⟨rfl, rfl, fun _ h => h, fun st h => ⟨st, h, rfl⟩, hCounted, rfl⟩

/-- Without tasks, a user event does not change the root route. -/
theorem name_handle {ui : Ui} {e : Event} {out : Ui × Issued Await} (hOne : OneScreen ui)
    (hTask : NoTask e) (h : app.handle e ui = some out) :
    out.1.focused.screen.name = ui.focused.screen.name := by
  rcases handle_remains_or_mounts hOne hTask h with hSame | ⟨hAuth, hMount | hMount⟩
  · exact hSame.name
  · rw [hMount.focused, hAuth]
    rfl
  · rw [hMount.focused, hAuth]
    rfl

/-- A user event keeps the stack at one route. -/
theorem OneScreen.handle {ui : Ui} {e : Event} {out : Ui × Issued Await}
    (hOne : OneScreen ui) (hTask : NoTask e) (h : app.handle e ui = some out) :
    OneScreen out.1 := by
  refine ⟨?_, name_handle hOne hTask h ▸ hOne.name⟩
  rcases handle_remains_or_mounts hOne hTask h with hSame | ⟨-, hMount | hMount⟩
  · exact hSame.below
  · exact hMount.below
  · exact hMount.below

/-- Continuations open `HOME` and `AUTH` alone. -/
theorem opens_cases {r : Ready} {name : RouteName} (h : opens r = some name) :
    name = .HOME ∨ name = .AUTH := by
  unfold opens at h
  repeat' split at h
  all_goals simp_all

/-- The name of the focused route follows what a continuation opens. -/
theorem name_resume {r : Ready} {ui : Ui} (hBelow : ui.below = []) :
    (app.resume r ui).1.focused.screen.name = (opens r).getD ui.focused.screen.name := by
  cases hOpens : opens r with
  | none =>
      rw [(resume_stays hBelow hOpens).screen, name_told]
      rfl
  | some name =>
      rw [(resume_opens hBelow hOpens).focused]
      rcases opens_cases hOpens with rfl | rfl <;> rfl

/-- A continuation keeps the stack at one route. -/
theorem OneScreen.resume {r : Ready} {ui : Ui} (hOne : OneScreen ui) :
    OneScreen (app.resume r ui).1 := by
  refine ⟨?_, ?_⟩
  · cases hOpens : opens r with
    | none => exact (resume_stays hOne.below hOpens).below
    | some name => exact (resume_opens hOne.below hOpens).below
  · rw [name_resume hOne.below]
    cases hOpens : opens r with
    | none => exact hOne.name
    | some name => exact (opens_cases hOpens).symm

end TaskManager.App
