import TaskManager.App.PageMaps
import TaskManager.App.Scripts

/-!
# What has no influence

The map of the application to itself that forgets the passwords typed on `LOGIN`, apart
from whether they are empty.
-/

namespace TaskManager.Runs

open TaskManager.Verified.JsText
open TaskManager.Verified.EventLoop
open TaskManager.Shared
open TaskManager.Pages
open TaskManager.Routes
open TaskManager.App

/-! ## Passwords -/

/-- All that is kept of a password is whether it is empty. -/
def hide (password : JsString) : JsString := if password.isEmpty then [] else js "*"

theorem isEmpty_hide (password : JsString) : (hide password).isEmpty = password.isEmpty := by
  unfold hide
  cases password <;> rfl

/-- The form without its password. -/
def hideLogin (s : Login.State) : Login.State :=
  { s with password := { s.password with val := hide s.password.val } }

/-- A press without its password. -/
def hideCall (call : Login.Call) : Login.Call := { call with password := hide call.password }

/-- The requests of `LOGIN`, by their presses. -/
def hideLoginAwait : Login.Await → Login.Await
  | .isUserLoggedIn key => .isUserLoggedIn key
  | .getUsers call => .getUsers (hideCall call)
  | .setLoggedIn call record => .setLoggedIn (hideCall call) record

/-- The continuations of `LOGIN`, by their presses. -/
def hideLoginReady : Login.Ready → Login.Ready
  | .isUserLoggedIn key info => .isUserLoggedIn key info
  | .getUsers call data => .getUsers (hideCall call) data
  | .setLoggedIn call record => .setLoggedIn (hideCall call) record

/-- The password that is typed. -/
def hideLoginEvent : Login.Event → Login.Event
  | .changePassword val => .changePassword (hide val)
  | e => e

theorem hide_check (val : JsString) :
    Login.handleValidation (hide val) .PASSWORD =
      { Login.handleValidation val .PASSWORD with
        val := hide (Login.handleValidation val .PASSWORD).val } := by
  simp only [Login.handleValidation, isEmpty_hide, Field.check]
  cases val <;> rfl

theorem accepted_hide (s : Login.State) : (hideLogin s).accepted = s.accepted := by
  simp only [Login.State.accepted, hideLogin, hide_check]

theorem handleSubmit_hide (key n : Nat) (s : Login.State) :
    Commutes id hideLogin hideLoginAwait (Login.handleSubmit key n s)
      (Login.handleSubmit key n (hideLogin s)) := by
  by_cases hAccepted : s.accepted = true
  · rw [Login.handleSubmit_accepted hAccepted,
      Login.handleSubmit_accepted ((accepted_hide s).trans hAccepted)]
    exact ⟨rfl, fun _ => rfl, rfl⟩
  · rw [Bool.not_eq_true] at hAccepted
    rw [Login.handleSubmit_rejected hAccepted,
      Login.handleSubmit_rejected ((accepted_hide s).trans hAccepted)]
    refine ⟨rfl, fun _ => ?_, rfl⟩
    simp only [hideLogin, hide_check]

/-- What an event of `LOGIN` does takes no note of the password. -/
theorem login_handle_hide (key n : Nat) (s : Login.State) (e : Login.Event) :
    Option.Rel (Commutes id hideLogin hideLoginAwait) (Login.handle key n s e)
      (Login.handle key n (hideLogin s) (hideLoginEvent e)) := by
  by_cases hLoading : s.isLoading = true
  · rw [Login.handle.eq_def, Login.handle.eq_def, if_pos hLoading]
    rw [if_pos (show (hideLogin s).isLoading = true from hLoading)]
    exact .none
  · rw [Login.handle.eq_def, Login.handle.eq_def, if_neg hLoading]
    rw [if_neg (show ¬ (hideLogin s).isLoading = true from hLoading)]
    refine .some ?_
    cases e with
    | changeEmail val => exact ⟨rfl, fun _ => rfl, rfl⟩
    | changePassword val => exact ⟨rfl, fun _ => rfl, rfl⟩
    | toggleSwitch => exact ⟨rfl, fun _ => rfl, rfl⟩
    | handleSubmit => exact handleSubmit_hide key n s
    | signupLink => exact ⟨rfl, fun _ => rfl, rfl⟩

theorem login_resume_hide (r : Login.Ready) :
    Commutes id hideLogin hideLoginAwait r.resume (hideLoginReady r).resume := by
  cases r with
  | isUserLoggedIn key info => exact ⟨(map_redated_id _).symm, fun _ => rfl, rfl⟩
  | getUsers call data =>
      show Commutes id hideLogin hideLoginAwait (Login.afterUsers call data)
        (Login.afterUsers (hideCall call) data)
      have hEmail : (hideCall call).email = call.email := rfl
      rw [Login.afterUsers_eq, Login.afterUsers_eq, hEmail]
      cases (data.getD []).find? fun e => e.email = call.email with
      | none => exact ⟨rfl, fun _ => rfl, rfl⟩
      | some user => exact ⟨rfl, fun _ => rfl, rfl⟩
  | setLoggedIn call record => exact ⟨rfl, fun _ => rfl, rfl⟩

/-- `LOGIN` does the same without the passwords: it tests them for emptiness alone. -/
def hideLoginPage : PageMap Page.login id id where
  state := hideLogin
  await := hideLoginAwait
  ready := hideLoginReady
  event := hideLoginEvent
  serve d a := by cases a <;> rfl
  key r := by cases r <;> rfl
  resume := login_resume_hide
  handle := login_handle_hide

/-- `LOGIN` forgets the password, and the other pages stay as they are. -/
def hidePages : AppMap where
  disk := id
  dates := id
  dates_zero := rfl
  login := hideLoginPage
  signup := .refl Page.signup
  home := .refl Page.home
  create := .refl Page.create
  list := .refl Page.list
  login_mount := rfl
  signup_mount := rfl
  home_mount := rfl
  create_mount _ := rfl
  list_mount := rfl
  login_load _ := rfl
  home_load _ := rfl
  create_load _ := rfl
  list_load _ := rfl

/-- The application, and the passwords typed on `LOGIN` forgotten. -/
def hidePasswords : Morphism app app := hidePages.morphism

/-- **The password typed on `LOGIN` has no influence**, as long as there is one.  Two runs
that differ in these passwords only can both be carried out or neither, leave the same store,
and differ in the passwords only that are still on the screen or in flight. -/
theorem password_has_no_influence (xs ys : List Action)
    (hSame : xs.map hidePasswords.action = ys.map hidePasswords.action) :
    (run xs).map (fun s => s.disk) = (run ys).map (fun s => s.disk) ∧
      (run xs).map hidePasswords.state = (run ys).map hidePasswords.state := by
  have hStates := hidePasswords.exec_agree init trivial hSame
  refine ⟨?_, hStates⟩
  have hDisks := congrArg (Option.map fun s : State => s.disk) hStates
  rwa [Option.map_map, Option.map_map] at hDisks

/-- Ann signs up with `pw`, logs out, and logs in with another password. -/
def annLogsIn (password : JsString) : List Action :=
  loaded ++ [openSignup] ++ fillSignup (js "ann@x.co") (js "pw") (js "Ann") ++ [pressSignup] ++
    answered ++ answered ++ answered ++ loaded ++ [pressLogout] ++ answered ++ loaded ++
    fillLogin (js "ann@x.co") password ++ [pressLogin] ++ answered ++ answered ++ loaded

theorem password_has_no_influence_ann :
    ∃ d, (run (annLogsIn (js "pw"))).map (fun s => s.disk) = some d ∧
      (run (annLogsIn (js "no idea"))).map (fun s => s.disk) = some d := by
  obtain ⟨s, hRun⟩ := Option.isSome_iff_exists.mp
    (show (run (annLogsIn (js "pw"))).isSome = true by decide +kernel)
  refine ⟨s.disk, by rw [hRun]; rfl, ?_⟩
  rw [← (password_has_no_influence (annLogsIn (js "pw")) (annLogsIn (js "no idea"))
    (by decide +kernel)).1, hRun]
  rfl

end TaskManager.Runs
