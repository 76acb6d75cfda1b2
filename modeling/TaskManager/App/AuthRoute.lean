import TaskManager.App.Openings
import TaskManager.App.SingleRoute

/-!
# The route of the authentication screens

Wherever `AUTH` lies on the root stack, it lies there alone.  The file says what a step does to
it, whatever else is on the way: it goes away, it is mounted anew, or it stays and hears of the
event or the continuation.

## Main results

* `authHandled` — what a user event does to it.
* `authResumed` — what a continuation does to it.
-/

namespace TaskManager.Routes

open TaskManager.Shared

namespace AuthScreen

/-- The page that is mounted. -/
def page : AuthScreen → RouteName
  | .LOGIN _ => .LOGIN
  | .SIGNUP _ => .SIGNUP

/-- `SIGNUP` has nothing to wait for. -/
def isLoading : AuthScreen → Bool
  | .LOGIN st => st.isLoading
  | .SIGNUP _ => false

/-- The text above the button. -/
def error : AuthScreen → String
  | .LOGIN st => st.error
  | .SIGNUP st => st.error

end AuthScreen

end TaskManager.Routes

namespace TaskManager.App

open TaskManager.Verified.JsText
open TaskManager.Shared
open TaskManager.Pages
open TaskManager.Routes
open TaskManager.Verified.EventLoop

/-- The root of the authentication screens lies on nothing, and nothing lies on it. -/
def AuthAlone (ui : Ui) : Prop := .AUTH ∈ ui.names → ui.names = [.AUTH]

section AuthAlone

variable {ui : Ui}

theorem AuthAlone.below (hAlone : AuthAlone ui) (hAuth : ui.focused.screen.name = .AUTH) :
    ui.below = [] := by
  have hNames := hAlone (by rw [← hAuth]; exact List.mem_cons_self)
  exact List.map_eq_nil_iff.mp (List.cons.inj hNames).2

theorem AuthAlone.focused (hAlone : AuthAlone ui) (hAuth : .AUTH ∈ ui.names) :
    ui.focused.screen.name = .AUTH :=
  (List.cons.inj (hAlone hAuth)).1

end AuthAlone

theorem auth_mem_names {ui : Ui} {key : Nat} {a : AuthScreen}
    (hFocused : ui.focused = ⟨key, .AUTH a⟩) : .AUTH ∈ ui.names := by
  have hName : ui.focused.screen.name = .AUTH := by rw [hFocused]; rfl
  rw [← hName]
  exact List.mem_cons_self

/-! ## What is asked for by whom -/

theorem mounts_asks {ui : Ui} {e : Event} {nav : Option Nav} (h : Asks ui e nav)
    (hAuth : mounts nav = some .AUTH) : ui.focused.screen.name = .AUTH := by
  cases h with
  | link hFocused _ => exact hFocused
  | nothing => nomatch hAuth
  | createTask _ _ => nomatch hAuth
  | addMembers _ => nomatch hAuth
  | back => nomatch hAuth

theorem mounts_asksLater {r : Ready} {nav : Option Nav} (h : AsksLater r nav)
    (hAuth : mounts nav = some .AUTH) : ∃ call key, r = .home (.logout call key) := by
  cases h with
  | auth hLogout => exact ⟨_, _, hLogout⟩
  | nothing => nomatch hAuth
  | home => nomatch hAuth
  | back => nomatch hAuth

/-! ## User events -/

/-- What no event changes: the kind of the screen, its loading and its error. -/
structure SameAuth (a a' : AuthScreen) : Prop where
  page : a'.page = a.page
  isLoading : a'.isLoading = a.isLoading
  error : a'.error = a.error

theorem SameAuth.refl (a : AuthScreen) : SameAuth a a := ⟨rfl, rfl, rfl⟩

theorem sameAuth_login {key id : Nat} {s : Login.State} {e : Login.Event}
    {eff : Effect Login.State Login.Await} (h : Login.handle key id s e = some eff)
    (s' : Login.State) : SameAuth (.LOGIN s') (.LOGIN (eff.update s')) := by
  refine ⟨rfl, Login.handle_isLoading h s', ?_⟩
  unfold Login.handle at h
  split at h
  · nomatch h
  · rw [Option.some.injEq] at h
    subst h
    cases e with
    | handleSubmit =>
        cases hAcc : s.accepted with
        | true => simp [Login.handleSubmit_accepted hAcc]
        | false => simp [Login.handleSubmit_rejected hAcc, AuthScreen.error]
    | changeEmail val => rfl
    | changePassword val => rfl
    | toggleSwitch => rfl
    | signupLink => rfl

theorem sameAuth_signup (key id : Nat) (s : Signup.State) (e : Signup.Event)
    (s' : Signup.State) :
    SameAuth (.SIGNUP s') (.SIGNUP ((Signup.handle key id s e).update s')) := by
  refine ⟨rfl, rfl, ?_⟩
  cases e with
  | handleSubmit =>
      cases hAcc : s.accepted with
      | true => simp [Signup.handle, Signup.handleSubmit_accepted hAcc]
      | false => simp [Signup.handle, Signup.handleSubmit_rejected hAcc, AuthScreen.error]
  | changeName val => rfl
  | changeEmail val => rfl
  | changePassword val => rfl
  | toggleSwitch => rfl
  | loginLink => rfl

/-- After a user event `AUTH` is gone, or has a fresh page, or has kept its own. -/
inductive AuthHandled (ui : Ui) (out : Ui × Issued Await) : Prop
  | left (h : .AUTH ∉ out.1.names)
  | mounted {name : RouteName} (hName : name = .LOGIN ∨ name = .SIGNUP)
      (h : Mounted ui.nextKey name out)
  | kept {key : Nat} {a a' : AuthScreen} (hOld : ui.focused = ⟨key, .AUTH a⟩)
      (hNew : out.1.focused = ⟨key, .AUTH a'⟩) (h : SameAuth a a') (hEffects : out.2.effects = [])

/-- **What a user event does to the route.** -/
theorem authHandled {ui : Ui} (hAlone : AuthAlone ui) {e : Event} {out : Ui × Issued Await}
    (hOut : app.handle e ui = some out) : AuthHandled ui out := by
  by_cases hAuth : ui.focused.screen.name = .AUTH
  · have hBelow : (counted ui).below = [] := hAlone.below hAuth
    cases handle_cases hOut with
    | @login s e eff hs hEff =>
        rcases Login.handle_navigate hEff with hNav | hNav
        · have hOld : ui.focused = ⟨ui.focused.key, .AUTH (.LOGIN s)⟩ := by rw [← hs]
          refine .kept hOld ?_ (sameAuth_login hEff s) ?_
          · simp [Ui.perform, hNav, counted, Ui.modify, hs, Screen.onLogin]
          · simp [Ui.perform, hNav]
        · exact .mounted (Or.inr rfl) (mounted_perform _ _ hBelow (Or.inl hNav) rfl)
    | @signup s e hs =>
        rcases Signup.handle_navigate ui.focused.key ui.nextCall s e with hNav | hNav
        · have hOld : ui.focused = ⟨ui.focused.key, .AUTH (.SIGNUP s)⟩ := by rw [← hs]
          refine .kept hOld ?_ (sameAuth_signup ui.focused.key ui.nextCall s e s) ?_
          · simp [Ui.perform, hNav, counted, Ui.modify, hs, Screen.onSignup]
          · simp [Ui.perform, hNav]
        · exact .mounted (Or.inl rfl) (mounted_perform _ _ hBelow (Or.inl hNav) rfl)
    | home hs => exact absurd hAuth (by simp [hs, Screen.name])
    | create hs => exact absurd hAuth (by simp [hs, Screen.name])
    | list hs _ => exact absurd hAuth (by simp [hs, Screen.name])
    | systemBack =>
        have hStill : (counted ui).navigate .goBack = (counted ui, []) := by
          simp [Ui.navigate, hBelow]
        rw [hStill]
        cases hs : ui.focused.screen with
        | AUTH a =>
            have hOld : ui.focused = ⟨ui.focused.key, .AUTH a⟩ := by rw [← hs]
            exact .kept hOld hOld (.refl a) rfl
        | HOME s => exact absurd hAuth (by simp [hs, Screen.name])
        | CREATE s => exact absurd hAuth (by simp [hs, Screen.name])
        | LIST s => exact absurd hAuth (by simp [hs, Screen.name])
  · refine .left fun hNew => hAuth ?_
    obtain ⟨nav, hFollows, hAsks⟩ := handle_asks hOut
    have hIn : .AUTH ∈ moveNames nav ui.names := hFollows.names ▸ hNew
    rcases mem_moveNames hIn with hOld | hMounts
    · exact hAlone.focused hOld
    · exact mounts_asks hAsks hMounts

/-! ## Continuations -/

/-- The launch check of the screen is reported. -/
def isChecked (key : Nat) : Ready → Bool
  | .login (.isUserLoggedIn key' _) => key' = key
  | _ => false

/-- What the lookup of a press on the screen comes to. -/
def answerTo (page : RouteName) (key : Nat) : Ready → Option String
  | .login (.getUsers call data) =>
      if page = .LOGIN ∧ key = call.key then
        some (if (data.getD []).any fun u => u.email = call.email then "" else "User not found")
      else none
  | .signup (.getUsers call data) =>
      if page = .SIGNUP ∧ key = call.key then
        some (if (data.getD []).any fun u => u.email = call.email then "User already added" else "")
      else none
  | _ => none

/-- What a continuation does to the screen under the key. -/
def toldAuth (r : Ready) (key : Nat) : AuthScreen → AuthScreen
  | .LOGIN st =>
      match r with
      | .login r => .LOGIN (if key = r.key then r.resume.update st else st)
      | _ => .LOGIN st
  | .SIGNUP st =>
      match r with
      | .signup r => .SIGNUP (if key = r.key then r.resume.update st else st)
      | _ => .SIGNUP st

theorem told_auth (r : Ready) (key : Nat) (a : AuthScreen) :
    told r key (.AUTH a) = .AUTH (toldAuth r key a) := by
  cases a with
  | LOGIN st =>
      cases r with
      | login r => by_cases hKey : key = r.key <;> simp [told, toldAuth, hKey, Screen.onLogin]
      | signup r => by_cases hKey : key = r.key <;> simp [told, toldAuth, hKey, Screen.onSignup]
      | home r => by_cases hKey : key = r.key <;> simp [told, toldAuth, hKey, Screen.onHome]
      | create r => cases r <;> simp [told, toldAuth, Screen.onCreate]
      | list r => by_cases hKey : key = r.key <;> simp [told, toldAuth, hKey, Screen.onList]
  | SIGNUP st =>
      cases r with
      | login r => by_cases hKey : key = r.key <;> simp [told, toldAuth, hKey, Screen.onLogin]
      | signup r => by_cases hKey : key = r.key <;> simp [told, toldAuth, hKey, Screen.onSignup]
      | home r => by_cases hKey : key = r.key <;> simp [told, toldAuth, hKey, Screen.onHome]
      | create r => cases r <;> simp [told, toldAuth, Screen.onCreate]
      | list r => by_cases hKey : key = r.key <;> simp [told, toldAuth, hKey, Screen.onList]

theorem page_toldAuth (r : Ready) (key : Nat) (a : AuthScreen) :
    (toldAuth r key a).page = a.page := by
  cases a <;> cases r <;> rfl

/-- Only the report of its launch check ends the loading. -/
theorem isLoading_toldAuth (r : Ready) (key : Nat) (a : AuthScreen) :
    (toldAuth r key a).isLoading = if isChecked key r then false else a.isLoading := by
  cases a with
  | SIGNUP st => cases r <;> simp [toldAuth, AuthScreen.isLoading]
  | LOGIN st =>
      cases r with
      | login r =>
          cases r with
          | isUserLoggedIn key' info =>
              by_cases hKey : key = key'
              · simp [toldAuth, isChecked, AuthScreen.isLoading, Login.Ready.key, hKey,
                  Login.Ready.resume]
              · simp [toldAuth, isChecked, AuthScreen.isLoading, Login.Ready.key, hKey,
                  Ne.symm hKey]
          | getUsers call data =>
              obtain ⟨-, hEff⟩ | ⟨user, -, -, hEff⟩ := Login.afterUsers_cases call data <;>
                by_cases hKey : key = call.key <;>
                simp [toldAuth, isChecked, AuthScreen.isLoading, Login.Ready.key, hKey,
                  Login.Ready.resume, hEff]
          | setLoggedIn call record =>
              simp [toldAuth, isChecked, AuthScreen.isLoading, Login.Ready.resume]
      | signup r => rfl
      | home r => rfl
      | create r => rfl
      | list r => rfl

/-- Only the lookup of a press on the screen sets its error. -/
theorem error_toldAuth (r : Ready) (key : Nat) (a : AuthScreen) :
    (toldAuth r key a).error = (answerTo a.page key r).getD a.error := by
  cases a with
  | LOGIN st =>
      cases r with
      | login r =>
          cases r with
          | isUserLoggedIn key' info =>
              by_cases hKey : key = key' <;>
                simp [toldAuth, answerTo, AuthScreen.error, Login.Ready.key, hKey,
                  Login.Ready.resume]
          | getUsers call data =>
              obtain ⟨hNone, hEff⟩ | ⟨user, hIn, hEmail, hEff⟩ := Login.afterUsers_cases call data
              · have hAny : (data.getD []).any (fun u => u.email = call.email) = false := by
                  simpa using hNone
                by_cases hKey : key = call.key <;>
                  simp [toldAuth, answerTo, AuthScreen.error, AuthScreen.page, Login.Ready.key,
                    hKey, Login.Ready.resume, hEff, hAny]
              · have hAny : (data.getD []).any (fun u => u.email = call.email) = true :=
                  List.any_eq_true.mpr ⟨user, hIn, decide_eq_true hEmail⟩
                by_cases hKey : key = call.key <;>
                  simp [toldAuth, answerTo, AuthScreen.error, AuthScreen.page, Login.Ready.key,
                    hKey, Login.Ready.resume, hEff, hAny]
          | setLoggedIn call record =>
              simp [toldAuth, answerTo, AuthScreen.error, Login.Ready.resume]
      | signup r => cases r <;> simp [toldAuth, answerTo, AuthScreen.page]
      | home r => rfl
      | create r => rfl
      | list r => rfl
  | SIGNUP st =>
      cases r with
      | signup r =>
          cases r with
          | getUsers call data =>
              obtain ⟨⟨user, hIn, hEmail⟩, hEff⟩ | ⟨hNone, hEff⟩ :=
                Signup.afterUsers_cases call data
              · have hAny : (data.getD []).any (fun u => u.email = call.email) = true :=
                  List.any_eq_true.mpr ⟨user, hIn, decide_eq_true hEmail⟩
                by_cases hKey : key = call.key <;>
                  simp [toldAuth, answerTo, AuthScreen.error, AuthScreen.page, Signup.Ready.key,
                    hKey, Signup.Ready.resume, hEff, hAny]
              · have hAny : (data.getD []).any (fun u => u.email = call.email) = false := by
                  simpa using hNone
                by_cases hKey : key = call.key <;>
                  simp [toldAuth, answerTo, AuthScreen.error, AuthScreen.page, Signup.Ready.key,
                    hKey, Signup.Ready.resume, hEff, hAny]
          | setUsers call => simp [toldAuth, answerTo, AuthScreen.error, Signup.Ready.resume]
          | setLoggedIn call => simp [toldAuth, answerTo, AuthScreen.error, Signup.Ready.resume]
      | login r => cases r <;> simp [toldAuth, answerTo, AuthScreen.page]
      | home r => rfl
      | create r => rfl
      | list r => rfl

/-- After a continuation `AUTH` is gone, or is mounted anew, or has kept its page, which has
been told. -/
inductive AuthResumed (r : Ready) (ui : Ui) (out : Ui × Issued Await) : Prop
  | left (h : .AUTH ∉ out.1.names)
  | mounted (h : out.1.focused = ⟨ui.nextKey, Screen.mount (0, 0) .AUTH⟩)
      (hOther : ∀ key, isChecked key r = false)
      (hEffects : out.2.effects = [.login (.isUserLoggedIn ui.nextKey)])
  | kept {key : Nat} {a : AuthScreen} (hOld : ui.focused = ⟨key, .AUTH a⟩)
      (hNew : out.1.focused = ⟨key, .AUTH (toldAuth r key a)⟩) (hEffects : out.2.effects = [])

theorem resume_logout (call key : Nat) (ui : Ui) :
    AuthResumed (.home (.logout call key)) ui (app.resume (.home (.logout call key)) ui) := by
  rw [resume_home, perform_eq]
  refine .mounted ?_ (fun _ => rfl) rfl
  show ((ui.navigate (.reset .AUTH)).1.modify key (Screen.onHome id)).focused = _
  rw [onHome_id, modify_id]
  rfl

theorem isLogout_of_opens {r : Ready} (h : opens r = some .AUTH) :
    ∃ call key, r = .home (.logout call key) := by
  unfold opens at h
  split at h
  · split at h <;> nomatch h
  · nomatch h
  · nomatch h
  · exact ⟨_, _, rfl⟩
  · nomatch h

/-- **What a continuation does to the route.** -/
theorem authResumed {ui : Ui} (hAlone : AuthAlone ui) (r : Ready) :
    AuthResumed r ui (app.resume r ui) := by
  by_cases hLogout : ∃ call key, r = .home (.logout call key)
  · obtain ⟨call, key, rfl⟩ := hLogout
    exact resume_logout call key ui
  by_cases hAuth : ui.focused.screen.name = .AUTH
  · have hBelow := hAlone.below hAuth
    cases hOpens : opens r with
    | some name =>
        have hMount := resume_opens hBelow hOpens
        rcases opens_cases hOpens with rfl | rfl
        · refine .left ?_
          simp [Ui.names, Ui.stack, hMount.focused, hMount.below, Screen.mount, Screen.name]
        · exact absurd (isLogout_of_opens hOpens) hLogout
    | none =>
        have hStays := resume_stays hBelow hOpens
        cases hs : ui.focused.screen with
        | AUTH a =>
            have hOld : ui.focused = ⟨ui.focused.key, .AUTH a⟩ := by rw [← hs]
            refine .kept hOld ?_ hStays.effects
            have hScreen := hStays.screen
            rw [hs, told_auth] at hScreen
            rw [← hScreen, ← hStays.key]
        | HOME s => exact absurd hAuth (by simp [hs, Screen.name])
        | CREATE s => exact absurd hAuth (by simp [hs, Screen.name])
        | LIST s => exact absurd hAuth (by simp [hs, Screen.name])
  · refine .left fun hNew => ?_
    have hIn : .AUTH ∈ moveNames (navOf r) ui.names := (resume_follows r ui).names ▸ hNew
    rcases mem_moveNames hIn with hOld | hMounts
    · exact hAuth (hAlone.focused hOld)
    · exact hLogout (mounts_asksLater (navOf_asksLater r) hMounts)

end TaskManager.App
