import TaskManager.App

/-!
# What one step of the application can do

The proofs about runs do not unfold the handlers.  They use the facts of this
file, which say once for each kind of step what it can issue:

* `handle_cases` — the screens a user event can go to;
* `handle_awaits` — an event issues a press (`Pressed`), or schedules loads;
* `resume_awaits` — a continuation issues the next request of its handler
  (`Continued`), or schedules loads;
* `accounts_serve`, `userLoggedIn_serve`, `tempMembers_serve` — a request
  changes the one entry it writes.
-/

namespace TaskManager.App

open TaskManager.Shared
open TaskManager.Pages
open TaskManager.Routes
open TaskManager.Verified.EventLoop

/-! ## Loads -/

/-- The requests of mount and focus callbacks, which only read. -/
inductive IsLoad : Await → Prop
  | login (key : Nat) : IsLoad (.login (.isUserLoggedIn key))
  | home (key : Nat) : IsLoad (.home (.getUserInfo key))
  | create (key : Nat) : IsLoad (.create (.fetchMembers key))
  | list (key : Nat) : IsLoad (.list (.getDraft key))

theorem isLoad_of_mem_focusEffects {r : Route} {a : Await}
    (ha : a ∈ r.focusEffects) : IsLoad a := by
  unfold Route.focusEffects at ha
  split at ha
  · rw [List.mem_singleton] at ha
    exact ha ▸ .create r.key
  · simp at ha

/-- A fresh screen loads. -/
theorem isLoad_of_mem_mountEffects {r : Route} {a : Await}
    (ha : a ∈ r.mountEffects) : IsLoad a := by
  unfold Route.mountEffects at ha
  split at ha
  · rw [List.mem_singleton] at ha
    exact ha ▸ .login r.key
  · simp at ha
  · rw [List.mem_singleton] at ha
    exact ha ▸ .home r.key
  · rw [List.mem_singleton] at ha
    exact ha ▸ .create r.key
  · rw [List.mem_singleton] at ha
    exact ha ▸ .list r.key

/-- Moves issue loads alone. -/
theorem isLoad_of_mem_navigate {ui : Ui} {nav : Nav} {a : Await}
    (ha : a ∈ (ui.navigate nav).2) : IsLoad a := by
  cases nav with
  | replace name => exact isLoad_of_mem_mountEffects ha
  | reset name => exact isLoad_of_mem_mountEffects ha
  | navigate name dates =>
      simp only [Ui.navigate] at ha
      split at ha
      · simp at ha
      · split at ha
        · exact isLoad_of_mem_mountEffects ha
        · exact isLoad_of_mem_focusEffects ha
  | goBack =>
      simp only [Ui.navigate] at ha
      split at ha
      · simp at ha
      · exact isLoad_of_mem_focusEffects ha

theorem isLoad_of_mem_perform {σ α : Type} {lift : (σ → σ) → Screen → Screen}
    {wrap : α → Await} {key : Nat} {eff : Effect σ α} {ui : Ui} {a : Await}
    (ha : a ∈ (ui.perform lift wrap key eff).2.effects) : IsLoad a := by
  simp only [Ui.perform] at ha
  split at ha
  · simp at ha
  · exact isLoad_of_mem_navigate ha

@[simp] theorem requests_perform {σ α : Type} (lift : (σ → σ) → Screen → Screen)
    (wrap : α → Await) (key : Nat) (eff : Effect σ α) (ui : Ui) :
    (ui.perform lift wrap key eff).2.requests = eff.requests.map wrap := rfl

/-- A fresh process issues a load. -/
theorem isLoad_of_mem_launch {ui : Ui} {a : Await}
    (ha : a ∈ (app.launch ui).2.effects ++ (app.launch ui).2.requests) :
    IsLoad a := by
  simp only [app, launch, Ui.mountOver, List.append_nil] at ha
  exact isLoad_of_mem_mountEffects ha

/-! ## User events -/

/-- The event reaches the focused screen, and its handler is executed there. -/
inductive Handles (ui : Ui) : Event → Ui × Issued Await → Prop
  | login {s e eff} (hs : ui.focused.screen = .AUTH (.LOGIN s))
      (h : Login.handle ui.focused.key ui.nextCall s e = some eff) :
      Handles ui (.login e)
        ((counted ui).perform Screen.onLogin .login ui.focused.key eff)
  | signup {s e} (hs : ui.focused.screen = .AUTH (.SIGNUP s)) :
      Handles ui (.signup e)
        ((counted ui).perform Screen.onSignup .signup ui.focused.key
          (Signup.handle ui.focused.key ui.nextCall s e))
  | home {s e} (hs : ui.focused.screen = .HOME s) :
      Handles ui (.home e)
        ((counted ui).perform Screen.onHome .home ui.focused.key
          (Home.handle ui.focused.key ui.nextCall e))
  | create {s e} (hs : ui.focused.screen = .CREATE s) :
      Handles ui (.create e)
        ((counted ui).perform Screen.onCreate .create ui.focused.key
          (TaskCreation.handle e))
  | list {s e eff} (hs : ui.focused.screen = .LIST s)
      (h : MembersList.handle ui.focused.key s e = some eff) :
      Handles ui (.list e)
        ((counted ui).perform Screen.onList .list ui.focused.key eff)
  | systemBack :
      Handles ui .systemBack
        (((counted ui).navigate .goBack).1,
          { effects := ((counted ui).navigate .goBack).2 })

/-- Which handler an event runs. -/
theorem handle_cases {ui : Ui} {e : Event} {out : Ui × Issued Await}
    (h : app.handle e ui = some out) : Handles ui e out := by
  simp only [app, handle] at h
  split at h
  · rename_i s hs
    rw [Option.map_eq_some_iff] at h
    obtain ⟨eff, hEff, rfl⟩ := h
    exact .login hs hEff
  · rename_i s hs
    rw [Option.some.injEq] at h
    exact h ▸ .signup hs
  · rename_i s hs
    rw [Option.some.injEq] at h
    exact h ▸ .home hs
  · rename_i s hs
    rw [Option.some.injEq] at h
    exact h ▸ .create hs
  · rename_i s hs
    rw [Option.map_eq_some_iff] at h
    obtain ⟨eff, hEff, rfl⟩ := h
    exact .list hs hEff
  · rw [Option.some.injEq] at h
    exact h ▸ .systemBack
  · simp at h

/-- The request a press issues, by the screen it is made on. -/
inductive Pressed (ui : Ui) : Event → Await → Prop
  | login {s} (hs : ui.focused.screen = .AUTH (.LOGIN s)) (hLoaded : s.isLoading = false)
      (hAcc : s.accepted = true) :
      Pressed ui (.login .handleSubmit)
        (.login (.getUsers (s.call ui.focused.key ui.nextCall)))
  | signup {s} (hs : ui.focused.screen = .AUTH (.SIGNUP s)) (hAcc : s.accepted = true) :
      Pressed ui (.signup .handleSubmit)
        (.signup (.getUsers (s.call ui.focused.key ui.nextCall)))
  | logout {s} (hs : ui.focused.screen = .HOME s) :
      Pressed ui (.home .logout) (.home (.logout ui.nextCall ui.focused.key))
  | handleBack {s} (hs : ui.focused.screen = .CREATE s) :
      Pressed ui (.create .handleBack) (.create .handleBack)
  | save {s} (hs : ui.focused.screen = .LIST s) :
      Pressed ui (.list .handleSubmit) (.list (.handleSubmit ui.focused.key s.shown))

/-- The requests that a user event issues are those of a press. -/
theorem handle_requests {ui : Ui} {e : Event} {out : Ui × Issued Await}
    (h : app.handle e ui = some out) {a : Await} (ha : a ∈ out.2.requests) :
    Pressed ui e a := by
  cases handle_cases h with
  | @login s e eff hs hEff =>
      simp only [requests_perform, List.mem_map] at ha
      obtain ⟨b, hb, rfl⟩ := ha
      obtain ⟨rfl, hAcc, rfl⟩ := Login.handle_requests hEff hb
      refine .login hs ?_ hAcc
      by_contra hLoading
      rw [Bool.not_eq_false] at hLoading
      simp [Login.handle, hLoading] at hEff
  | signup hs =>
      simp only [requests_perform, List.mem_map] at ha
      obtain ⟨b, hb, rfl⟩ := ha
      obtain ⟨rfl, hAcc, rfl⟩ := Signup.handle_requests hb
      exact .signup hs hAcc
  | @home s e hs =>
      simp only [requests_perform, List.mem_map] at ha
      obtain ⟨b, hb, rfl⟩ := ha
      cases e with
      | logout =>
          simp only [Home.handle, List.mem_singleton] at hb
          exact hb ▸ .logout hs
      | createTask dates => simp [Home.handle] at hb
  | create hs =>
      simp only [requests_perform, List.mem_map] at ha
      obtain ⟨b, hb, rfl⟩ := ha
      obtain ⟨rfl, rfl⟩ := TaskCreation.handle_requests hb
      exact .handleBack hs
  | list hs hEff =>
      simp only [requests_perform, List.mem_map] at ha
      obtain ⟨b, hb, rfl⟩ := ha
      obtain ⟨rfl, rfl⟩ := MembersList.handle_requests hEff hb
      exact .save hs
  | systemBack => simp at ha

/-- What a user event schedules is a load. -/
theorem handle_effects {ui : Ui} {e : Event} {out : Ui × Issued Await}
    (h : app.handle e ui = some out) {a : Await} (ha : a ∈ out.2.effects) :
    IsLoad a := by
  cases handle_cases h with
  | login _ _ => exact isLoad_of_mem_perform ha
  | signup _ => exact isLoad_of_mem_perform ha
  | home _ => exact isLoad_of_mem_perform ha
  | create _ => exact isLoad_of_mem_perform ha
  | list _ _ => exact isLoad_of_mem_perform ha
  | systemBack => exact isLoad_of_mem_navigate ha

/-- All an event can put in the queues. -/
theorem handle_awaits {ui : Ui} {e : Event} {out : Ui × Issued Await}
    (h : app.handle e ui = some out) {a : Await}
    (ha : a ∈ out.2.effects ++ out.2.requests) : IsLoad a ∨ Pressed ui e a :=
  (List.mem_append.mp ha).imp (handle_effects h) (handle_requests h)

/-! ## Continuations -/

theorem resume_login (r : Login.Ready) (ui : Ui) :
    app.resume (.login r) ui = ui.perform Screen.onLogin .login r.key r.resume := rfl

theorem resume_signup (r : Signup.Ready) (ui : Ui) :
    app.resume (.signup r) ui = ui.perform Screen.onSignup .signup r.key r.resume := rfl

theorem resume_home (r : Home.Ready) (ui : Ui) :
    app.resume (.home r) ui = ui.perform Screen.onHome .home r.key r.resume := rfl

theorem resume_fetchMembers (key : Nat) (list : Option (List Member)) (ui : Ui) :
    app.resume (.create (.fetchMembers key list)) ui =
      ui.perform Screen.onCreate .create key
        (TaskCreation.Ready.fetchMembers key list).resume := rfl

theorem resume_list (r : MembersList.Ready) (ui : Ui) :
    app.resume (.list r) ui = ui.perform Screen.onList .list r.key r.resume := rfl

/-- The next request of a handler whose last one has completed. -/
inductive Continued : Ready → Await → Prop
  | loginUsers {call data user} (hUser : user ∈ Option.getD data [])
      (hEmail : user.email = call.email) :
      Continued (.login (.getUsers call data)) (.login (.setLoggedIn call user))
  | signupUsers {call data} (hNew : ∀ u ∈ Option.getD data [], u.email ≠ call.email) :
      Continued (.signup (.getUsers call data))
        (.signup (.setUsers call (data.getD [])))
  | signupSession {call} :
      Continued (.signup (.setUsers call)) (.signup (.setLoggedIn call))
  | listMembers {key list} (hEmpty : Option.getD list [] = []) :
      Continued (.list (.getDraft key list)) (.list (.getMembers key))

/-- A continuation issues the next request of its handler. -/
theorem resume_requests {r : Ready} {ui : Ui} {a : Await}
    (ha : a ∈ (app.resume r ui).2.requests) : Continued r a := by
  cases r with
  | login r =>
      simp only [app, resume, requests_perform, List.mem_map] at ha
      obtain ⟨b, hb, rfl⟩ := ha
      cases r with
      | isUserLoggedIn key info => simp [Login.Ready.resume] at hb
      | getUsers call data =>
          simp only [Login.Ready.resume] at hb
          obtain ⟨-, hEff⟩ | ⟨user, hUser, hEmail, hEff⟩ := Login.afterUsers_cases call data
          · simp [hEff] at hb
          · rw [hEff, List.mem_singleton] at hb
            exact hb ▸ .loginUsers hUser hEmail
      | setLoggedIn call record => simp [Login.Ready.resume] at hb
  | signup r =>
      simp only [app, resume, requests_perform, List.mem_map] at ha
      obtain ⟨b, hb, rfl⟩ := ha
      cases r with
      | getUsers call data =>
          simp only [Signup.Ready.resume] at hb
          obtain ⟨-, hEff⟩ | ⟨hNew, hEff⟩ := Signup.afterUsers_cases call data
          · simp [hEff] at hb
          · rw [hEff, List.mem_singleton] at hb
            exact hb ▸ .signupUsers hNew
      | setUsers call =>
          simp only [Signup.Ready.resume, List.mem_singleton] at hb
          exact hb ▸ .signupSession
      | setLoggedIn call => simp [Signup.Ready.resume] at hb
  | home r =>
      simp only [app, resume, requests_perform, List.mem_map] at ha
      obtain ⟨b, hb, rfl⟩ := ha
      cases r <;> simp [Home.Ready.resume] at hb
  | create r => cases r <;> simp [app, resume, TaskCreation.Ready.resume] at ha
  | list r =>
      simp only [app, resume, requests_perform, List.mem_map] at ha
      obtain ⟨b, hb, rfl⟩ := ha
      cases r with
      | getDraft key list =>
          simp only [MembersList.Ready.resume, MembersList.afterDraft] at hb
          split at hb
          · rw [List.mem_singleton] at hb
            exact hb ▸ .listMembers rfl
          · rw [List.mem_singleton] at hb
            exact hb ▸ .listMembers rfl
          · simp [MembersList.finish] at hb
      | getMembers key list => simp [MembersList.Ready.resume, MembersList.finish] at hb
      | handleSubmit key => simp [MembersList.Ready.resume] at hb

/-- What a continuation schedules is a load. -/
theorem resume_effects {r : Ready} {ui : Ui} {a : Await}
    (ha : a ∈ (app.resume r ui).2.effects) : IsLoad a := by
  cases r with
  | login r => exact isLoad_of_mem_perform ha
  | signup r => exact isLoad_of_mem_perform ha
  | home r => exact isLoad_of_mem_perform ha
  | create r =>
      cases r with
      | fetchMembers key list => exact isLoad_of_mem_perform ha
      | handleBack => simp [app, resume] at ha
  | list r => exact isLoad_of_mem_perform ha

/-- All a continuation can put in the queues. -/
theorem resume_awaits {r : Ready} {ui : Ui} {a : Await}
    (ha : a ∈ (app.resume r ui).2.effects ++ (app.resume r ui).2.requests) :
    IsLoad a ∨ Continued r a :=
  (List.mem_append.mp ha).imp resume_effects resume_requests

/-- Scheduled callbacks only load. -/
theorem isLoad_of_step {s s' : State} {x : Action} (hLoads : ∀ a ∈ s.effects, IsLoad a)
    (hx : app.Step s x s') : ∀ a ∈ s'.effects, IsLoad a := by
  intro a ha
  cases hx with
  | user hOut =>
      simp only [State.issue, List.mem_append] at ha
      exact ha.elim (hLoads a) (handle_effects hOut)
  | effect _ => exact hLoads a (List.mem_of_mem_eraseIdx ha)
  | serve _ => exact hLoads a ha
  | resolve _ =>
      simp only [State.issue, List.mem_append] at ha
      exact ha.elim (hLoads a) resume_effects
  | reject _ => exact hLoads a ha
  | kill => exact isLoad_of_mem_launch (List.mem_append_left _ ha)

/-- In every run, what is scheduled is a load. -/
theorem isLoad_of_mem_effects {xs : List Action} {s : State} (hRun : run xs = some s) :
    ∀ a ∈ s.effects, IsLoad a := by
  refine app.exec_invariant (fun s => ∀ a ∈ s.effects, IsLoad a) ?_ ?_ hRun
  · intro a ha
    simp only [init, List.mem_singleton] at ha
    exact ha ▸ .login 0
  · exact fun s x s' hLoads hx => isLoad_of_step hLoads hx

/-! ## The focused screen -/

@[simp] theorem name_onLogin (f : Login.State → Login.State) (screen : Screen) :
    (screen.onLogin f).name = screen.name := by
  unfold Screen.onLogin
  split <;> rfl

@[simp] theorem name_onSignup (f : Signup.State → Signup.State) (screen : Screen) :
    (screen.onSignup f).name = screen.name := by
  unfold Screen.onSignup
  split <;> rfl

@[simp] theorem name_onHome (f : Home.State → Home.State) (screen : Screen) :
    (screen.onHome f).name = screen.name := by
  unfold Screen.onHome
  split <;> rfl

@[simp] theorem name_onCreate (f : TaskCreation.State → TaskCreation.State)
    (screen : Screen) : (screen.onCreate f).name = screen.name := by
  unfold Screen.onCreate
  split <;> rfl

@[simp] theorem name_onList (f : MembersList.State → MembersList.State)
    (screen : Screen) : (screen.onList f).name = screen.name := by
  unfold Screen.onList
  split <;> rfl

/-- Where the focus goes before the setters run, with the callbacks that are
scheduled. -/
def moved (ui : Ui) : Option Nav → Ui × List Await
  | none => (ui, [])
  | some nav => ui.navigate nav

/-- A stretch of a handler: the move comes first, and then the setters. -/
theorem perform_eq {σ α : Type} (lift : (σ → σ) → Screen → Screen) (wrap : α → Await)
    (key : Nat) (eff : Effect σ α) (ui : Ui) :
    ui.perform lift wrap key eff =
      ((moved ui eff.navigate).1.modify key (lift eff.update),
        { requests := eff.requests.map wrap, effects := (moved ui eff.navigate).2 }) := by
  cases h : eff.navigate <;> simp [Ui.perform, moved, h]

/-- The setters of a screen change no name on the stack. -/
theorem name_focused_perform {σ α : Type} {lift : (σ → σ) → Screen → Screen}
    (hLift : ∀ f screen, (lift f screen).name = screen.name) (wrap : α → Await)
    (key : Nat) (eff : Effect σ α) (ui : Ui) :
    (ui.perform lift wrap key eff).1.focused.screen.name =
      (moved ui eff.navigate).1.focused.screen.name := by
  rw [perform_eq]
  simp only [Ui.modify]
  split
  · exact hLift _ _
  · rfl

/-- `replace("HOME")` from an auth screen, mounted or not, shows `HOME`. -/
theorem name_focused_setLoggedIn (call : Login.Call) (record : Account) (ui : Ui) :
    (app.resume (.login (.setLoggedIn call record)) ui).1.focused.screen.name = .HOME :=
  name_focused_perform name_onLogin _ _ _ _

/-! ## The numbers of presses -/

@[simp] theorem nextCall_navigate (ui : Ui) (nav : Nav) :
    (ui.navigate nav).1.nextCall = ui.nextCall := by
  cases nav with
  | replace name => rfl
  | reset name => rfl
  | navigate name dates =>
      simp only [Ui.navigate]
      split
      · rfl
      · split <;> rfl
  | goBack =>
      simp only [Ui.navigate]
      split <;> rfl

@[simp] theorem nextCall_perform {σ α : Type} (lift : (σ → σ) → Screen → Screen)
    (wrap : α → Await) (key : Nat) (eff : Effect σ α) (ui : Ui) :
    (ui.perform lift wrap key eff).1.nextCall = ui.nextCall := by
  cases h : eff.navigate <;> simp [Ui.perform, Ui.modify, h]

/-- User events are numbered. -/
theorem nextCall_handle {ui : Ui} {e : Event} {out : Ui × Issued Await}
    (h : app.handle e ui = some out) : out.1.nextCall = ui.nextCall + 1 := by
  cases handle_cases h <;> simp [counted]

/-- A continuation takes no number. -/
theorem nextCall_resume (r : Ready) (ui : Ui) : (app.resume r ui).1.nextCall = ui.nextCall := by
  cases r with
  | login r => exact nextCall_perform _ _ _ _ _
  | signup r => exact nextCall_perform _ _ _ _ _
  | home r => exact nextCall_perform _ _ _ _ _
  | create r =>
      cases r with
      | fetchMembers key list => exact nextCall_perform _ _ _ _ _
      | handleBack => rfl
  | list r => exact nextCall_perform _ _ _ _ _

/-! ## What a request writes -/

/-- The role whose accounts a request writes, with the new list. -/
def storeWrite : Await → Option (Bool × List Account)
  | .signup (.setUsers call data) => some (call.isAdmin, call.account :: data)
  | _ => none

/-- What a request leaves in `USER_LOGGEDIN_KEY`, when it writes there. -/
def sessionWrite : Await → Option (Option Account)
  | .login (.setLoggedIn _ record) => some (some record)
  | .signup (.setLoggedIn call) => some (some call.account)
  | .home (.logout _ _) => some none
  | _ => none

/-- What a request leaves in `TEMP_MEMBERS`, when it writes there. -/
def draftWrite : Await → Option (Option (List Member))
  | .list (.handleSubmit _ list) => some (some list)
  | .create .handleBack => some none
  | _ => none

/-- The accounts after a request. -/
theorem accounts_serve (a : Await) (d : Disk) (isAdmin : Bool) :
    (app.serve a d).1.accounts isAdmin =
      match storeWrite a with
      | none => d.accounts isAdmin
      | some (role, list) => if isAdmin = role then list else d.accounts isAdmin := by
  cases a with
  | login a => cases a <;> rfl
  | home a => cases a <;> rfl
  | create a => cases a <;> rfl
  | list a => cases a <;> rfl
  | signup a =>
      cases a with
      | getUsers call => rfl
      | setLoggedIn call => rfl
      | setUsers call data =>
          show (d.setUsers call.isAdmin (call.account :: data)).accounts isAdmin = _
          by_cases h : isAdmin = call.isAdmin
          · simp [h, storeWrite]
          · simp [h, storeWrite, Disk.accounts_setUsers_ne]

/-- A request leaves the accounts of a role alone, or it puts an account of the role in front
of the list it carries. -/
theorem accounts_serve_cases (a : Await) (d : Disk) (isAdmin : Bool) :
    (app.serve a d).1.accounts isAdmin = d.accounts isAdmin ∨
      ∃ call data, a = .signup (.setUsers call data) ∧ call.isAdmin = isAdmin ∧
        (app.serve a d).1.accounts isAdmin = call.account :: data := by
  rw [accounts_serve]
  cases hWrite : storeWrite a with
  | none => exact Or.inl rfl
  | some w =>
      unfold storeWrite at hWrite
      split at hWrite
      · rename_i call data
        obtain rfl := Option.some.inj hWrite
        by_cases hRole : isAdmin = call.isAdmin
        · exact Or.inr ⟨call, data, rfl, hRole.symm, if_pos hRole⟩
        · exact Or.inl (if_neg hRole)
      · simp at hWrite

/-- The session after a request. -/
theorem userLoggedIn_serve (a : Await) (d : Disk) :
    (app.serve a d).1.userLoggedIn = (sessionWrite a).getD d.userLoggedIn := by
  cases a with
  | login a => cases a <;> rfl
  | home a => cases a <;> rfl
  | create a => cases a <;> rfl
  | list a => cases a <;> rfl
  | signup a => cases a <;> simp [app, serve, Signup.Await.serve, sessionWrite]

/-- The draft after a request. -/
theorem tempMembers_serve (a : Await) (d : Disk) :
    (app.serve a d).1.tempMembers = (draftWrite a).getD d.tempMembers := by
  cases a with
  | login a => cases a <;> rfl
  | home a => cases a <;> rfl
  | create a => cases a <;> rfl
  | list a => cases a <;> rfl
  | signup a => cases a <;> simp [app, serve, Signup.Await.serve, draftWrite]

/-- No request touches `TASKS_KEY`. -/
theorem tasks_serve (a : Await) (d : Disk) : (app.serve a d).1.tasks = d.tasks := by
  cases a with
  | login a => cases a <;> rfl
  | home a => cases a <;> rfl
  | create a => cases a <;> rfl
  | list a => cases a <;> rfl
  | signup a => cases a <;> simp [app, serve, Signup.Await.serve]

end TaskManager.App
