import TaskManager.Verified.Alone
import TaskManager.App.Stack

/-!
# Operations that run alone

What an operation of the application does from its press to its end, when
nothing else happens: the press leaves the screens as they are and issues one
request (`handle_of_pressed`), and each answer either ends the operation or
goes on to the next request (`GoesOn`).
-/

namespace TaskManager.App

open TaskManager.Shared
open TaskManager.Pages
open TaskManager.Routes
open TaskManager.Verified.EventLoop

/-! ## Presses -/

/-- A press issues its request and leaves the screens as they are, apart from the
arrow of `CREATE`. -/
theorem handle_of_pressed {ui : Ui} {e : Event} {a : Await} (h : Pressed ui e a)
    (hBack : e ≠ .create .handleBack) :
    app.handle e ui = some (counted ui, { requests := [a] }) := by
  cases h with
  | login hs hLoaded hAcc =>
      simp [app, App.handle, hs, Login.handle, hLoaded, Login.handleSubmit_accepted hAcc,
        perform_eq, moved, modify_id]
  | signup hs hAcc =>
      simp [app, App.handle, hs, Signup.handle, Signup.handleSubmit_accepted hAcc, perform_eq,
        moved, modify_id]
  | logout hs => simp [app, App.handle, hs, Home.handle, perform_eq, moved, modify_id]
  | handleBack _ => exact absurd rfl hBack
  | save hs => simp [app, App.handle, hs, MembersList.handle, perform_eq, moved, modify_id]

/-- A press issues one request. -/
theorem handle_oneAtATime {ui : Ui} {e : Event} {out : Ui × Issued Await}
    (h : app.handle e ui = some out) : out.2.requests.length ≤ 1 := by
  by_cases hBack : e = .create .handleBack
  · subst hBack
    cases handle_cases h with
    | create hs => exact Nat.le_refl _
  · cases hRequests : out.2.requests with
    | nil => simp
    | cons a as =>
        have hPress : Pressed ui e a := handle_requests h (hRequests ▸ List.mem_cons_self)
        have hSame := handle_of_pressed hPress hBack
        rw [h, Option.some.injEq] at hSame
        rw [← hRequests, hSame]
        simp

theorem oneAtATime : app.OneAtATime := by
  intro r ui
  cases r with
  | login r =>
      rw [resume_login, requests_perform, List.length_map]
      cases r with
      | isUserLoggedIn key info => exact Nat.zero_le _
      | getUsers call data =>
          obtain ⟨-, hEff⟩ | ⟨_, -, -, hEff⟩ := Login.afterUsers_cases call data <;>
            simp [Login.Ready.resume, hEff]
      | setLoggedIn call record => exact Nat.zero_le _
  | signup r =>
      rw [resume_signup, requests_perform, List.length_map]
      cases r with
      | getUsers call data =>
          obtain ⟨-, hEff⟩ | ⟨-, hEff⟩ := Signup.afterUsers_cases call data <;>
            simp [Signup.Ready.resume, hEff]
      | setUsers call => exact Nat.le_refl _
      | setLoggedIn call => exact Nat.zero_le _
  | home r => cases r <;> exact Nat.zero_le _
  | create r => cases r <;> exact Nat.zero_le _
  | list r =>
      rw [resume_list, requests_perform, List.length_map]
      cases r with
      | getDraft key list =>
          rcases list with _ | _ | ⟨m, ms⟩ <;>
            simp [MembersList.Ready.resume, MembersList.afterDraft, MembersList.finish]
      | getMembers key data => exact Nat.zero_le _
      | handleSubmit key => exact Nat.zero_le _

/-- The state after a press that leaves the screens as they are. -/
def begun (s : State) (a : Await) : State := s.issue (counted s.ui, { requests := [a] })

@[simp] theorem pending_begun {s : State} (hPending : s.pending = []) (a : Await) :
    (begun s a).pending = [a] := by
  simp [begun, State.issue, hPending]

/-- A press, and what follows it. -/
theorem exec_pressed {s : State} {e : Event} {a : Await} (h : Pressed s.ui e a)
    (hBack : e ≠ .create .handleBack) (xs : List Action) :
    app.exec s (.user e :: xs) = app.exec (begun s a) xs := by
  have hStart : app.step s (.user e) = some (begun s a) := by
    rw [app.step_iff]
    exact .user (handle_of_pressed h hBack)
  rw [app.exec_cons, hStart, Option.bind_some]

/-- A press and the answers that complete it. -/
theorem exec_completed {s c : State} {e : Event} {a : Await} {n : Nat} (h : Pressed s.ui e a)
    (hBack : e ≠ .create .handleBack) (hPending : s.pending = []) (hServed : s.served = [])
    (hEnd : app.Completed (begun s a) n c) :
    app.exec s (.user e :: answers Event n) = some c ∧ c.pending = [] := by
  rw [exec_pressed h hBack]
  have hOne : (begun s a).pending.length ≤ 1 := by
    rw [pending_begun hPending]
    exact Nat.le_refl 1
  exact (Program.completed_iff oneAtATime hOne hServed).mp hEnd

/-! ## Answers -/

/-- The answer to `a` tells the screen instance `key` what `f` says, and its
handler goes on to `b`. -/
structure GoesOn (d : Disk) (a : Await) (key : Nat) (f : Screen → Screen) (b : Await) :
    Prop where
  disk : (app.serve a d).1 = d
  resume : ∀ ui, app.resume (app.serve a d).2 ui = (ui.modify key f, { requests := [b] })

theorem GoesOn.answer {s : State} {a b : Await} {key : Nat} {f : Screen → Screen}
    (h : GoesOn s.disk a key f b) :
    app.answer s a = { s with ui := s.ui.modify key f, pending := [b] } := by
  have hResume := h.resume s.ui
  simp [Program.answer, State.issue, h.disk, hResume]

/-! ## Submits -/

/-- The answer to the read of `LOGIN`. -/
theorem resume_login_users (call : Login.Call) (d : Disk) (ui : Ui) :
    app.resume (.login (.getUsers call (d.getUsers call.isAdmin))) ui =
      match (d.accounts call.isAdmin).find? fun e => e.email = call.email with
      | none =>
          (ui.modify call.key (Screen.onLogin fun st => { st with error := "User not found" }), {})
      | some user =>
          (ui.modify call.key (Screen.onLogin fun st => { st with error := "" }),
            { requests := [.login (.setLoggedIn call user)] }) := by
  rw [resume_login, perform_eq, Login.Ready.resume, Login.afterUsers_eq]
  show _ = match (((d.getUsers call.isAdmin).getD []).find? fun e => e.email = call.email) with
    | none => _
    | some user => _
  generalize ((d.getUsers call.isAdmin).getD []).find? (fun e => e.email = call.email) = found
  cases found <;> rfl

theorem goesOn_login {d : Disk} {call : Login.Call} {user : Account}
    (hFound : (d.accounts call.isAdmin).find? (fun e => e.email = call.email) = some user) :
    GoesOn d (.login (.getUsers call)) call.key (Screen.onLogin fun st => { st with error := "" })
      (.login (.setLoggedIn call user)) where
  disk := rfl
  resume ui := by
    have hAnswer := resume_login_users call d ui
    rw [hFound] at hAnswer
    exact hAnswer

/-- The answer to the read of `SIGNUP`, when the email is taken. -/
theorem resume_signup_taken {call : Signup.Call} {d : Disk} {u : Account}
    (hIn : u ∈ d.accounts call.isAdmin) (hEmail : u.email = call.email) (ui : Ui) :
    app.resume (.signup (.getUsers call (d.getUsers call.isAdmin))) ui =
      (ui.modify call.key (Screen.onSignup fun st => { st with error := "User already added" }),
        {}) := by
  obtain ⟨-, hEff⟩ | ⟨hNew, -⟩ := Signup.afterUsers_cases call (d.getUsers call.isAdmin)
  · rw [resume_signup, perform_eq, Signup.Ready.resume, hEff]
    rfl
  · exact absurd hEmail (hNew u hIn)

/-- A signup whose email is taken ends at the answer to its read. -/
theorem signup_refused {m : State} {call : Signup.Call}
    (hTaken : ∃ u ∈ m.disk.accounts call.isAdmin, u.email = call.email) :
    app.answer (begun m (.signup (.getUsers call))) (.signup (.getUsers call)) =
      { m with
        ui := (counted m.ui).modify call.key
          (Screen.onSignup fun st => { st with error := "User already added" })
        pending := [] } := by
  obtain ⟨u, hu, hEmail⟩ := hTaken
  have hAnswer := resume_signup_taken hu hEmail (counted m.ui)
  have hServe : app.serve (.signup (.getUsers call)) m.disk =
      (m.disk, .signup (.getUsers call (m.disk.getUsers call.isAdmin))) := rfl
  simp [Program.answer, begun, State.issue, hServe, hAnswer]

theorem goesOn_signup {d : Disk} {call : Signup.Call}
    (hNew : ∀ u ∈ d.accounts call.isAdmin, u.email ≠ call.email) :
    GoesOn d (.signup (.getUsers call)) call.key
      (Screen.onSignup fun st => { st with error := "" })
      (.signup (.setUsers call (d.accounts call.isAdmin))) where
  disk := rfl
  resume ui := by
    show app.resume (.signup (.getUsers call (d.getUsers call.isAdmin))) ui = _
    obtain ⟨⟨u, hu, hEmail⟩, -⟩ | ⟨-, hEff⟩ :=
      Signup.afterUsers_cases call (d.getUsers call.isAdmin)
    · exact absurd hEmail (hNew u hu)
    · rw [resume_signup, perform_eq, Signup.Ready.resume, hEff]
      rfl

/-! ## The load of `LIST` -/

/-- Without a draft, `LIST` goes on to the member accounts. -/
theorem goesOn_list {d : Disk} (key : Nat) (hEmpty : d.tempMembers.getD [] = []) :
    GoesOn d (.list (.getDraft key)) key id (.list (.getMembers key)) where
  disk := rfl
  resume ui := by
    show app.resume (.list (.getDraft key d.tempMembers)) ui = _
    rw [resume_list, perform_eq, MembersList.Ready.resume]
    generalize d.tempMembers = list at hEmpty
    rcases list with _ | _ | ⟨m, ms⟩
    · simp [MembersList.afterDraft, moved, MembersList.Ready.key]
    · simp [MembersList.afterDraft, moved, MembersList.Ready.key]
    · simp at hEmpty

/-- With a draft, `LIST` is done. -/
theorem resume_list_draft {list : Option (List Member)} (key : Nat) (ui : Ui)
    (hDraft : list.getD [] ≠ []) :
    (app.resume (.list (.getDraft key list)) ui).2.requests = [] := by
  rcases list with _ | _ | ⟨m, ms⟩
  · exact absurd rfl hDraft
  · exact absurd rfl hDraft
  · rfl

end TaskManager.App
