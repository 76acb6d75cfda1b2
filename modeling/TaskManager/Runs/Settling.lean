import TaskManager.App.Steps
import TaskManager.App.Scripts
import TaskManager.Verified.Progress

/-!
# The application settles

A request is weighed by what can follow from it: a load is followed by a second read at
most, a submit by the rest of its handler and by the load of the screen it opens.

## Main results

* `activity_is_bounded` — in a run with `n` user events and `k` starts there are at most
  `9 * n + 6 * k + 6` steps of the application and of its store.
* `left_alone_it_settles` — left alone the application comes to rest, in whatever order
  the store works and whatever it refuses.
-/

namespace TaskManager.Runs

open TaskManager.Verified.JsText
open TaskManager.Shared
open TaskManager.Pages
open TaskManager.Routes
open TaskManager.Verified.EventLoop
open TaskManager.App

/-! ## Weights -/

/-- How many steps can follow from a request, as far as they are its own. -/
def awaitWeight : Await → Nat
  | .login (.isUserLoggedIn _) => 5
  | .login (.getUsers _) => 7
  | .login (.setLoggedIn _ _) => 5
  | .signup (.getUsers _) => 9
  | .signup (.setUsers _ _) => 7
  | .signup (.setLoggedIn _) => 5
  | .home (.getUserInfo _) => 2
  | .home (.logout _ _) => 8
  | .create _ => 2
  | .list (.getDraft _) => 4
  | .list (.getMembers _) => 2
  | .list (.handleSubmit _ _) => 5

/-- The same of a continuation. -/
def readyWeight : Ready → Nat
  | .login (.isUserLoggedIn _ _) => 4
  | .login (.getUsers _ _) => 6
  | .login (.setLoggedIn _ _) => 4
  | .signup (.getUsers _ _) => 8
  | .signup (.setUsers _) => 6
  | .signup (.setLoggedIn _) => 4
  | .home (.getUserInfo _ _) => 1
  | .home (.logout _ _) => 7
  | .create _ => 1
  | .list (.getDraft _ _) => 3
  | .list (.getMembers _ _) => 1
  | .list (.handleSubmit _) => 4

/-- What the callbacks of a fresh screen leave to do. -/
def mountWeight : RouteName → Nat
  | .AUTH => 6
  | .LOGIN => 6
  | .SIGNUP => 0
  | .HOME => 3
  | .CREATE => 3
  | .LIST => 5

/-- What a call on `navigation` leaves to do at most: a screen is mounted, or `CREATE` gets
the focus back. -/
def navWeight : Option Nav → Nat
  | none => 0
  | some (.replace name) => mountWeight name
  | some (.reset name) => mountWeight name
  | some (.navigate name _) => max (mountWeight name) 3
  | some .goBack => 3

/-- A callback runs first, and its request comes after. -/
def effectsWeight (effects : List Await) : Nat :=
  (effects.map fun a => awaitWeight a + 1).sum

theorem effectsWeight_mount (ui : Ui) (name : RouteName) (dates : Nat × Nat)
    (below : List Route) :
    effectsWeight (ui.mountOver name dates below).2 = mountWeight name := by
  cases name <;> rfl

theorem effectsWeight_refocus (ui : Ui) (r : Route) (below : List Route) :
    effectsWeight (ui.refocus r below).2 ≤ 3 := by
  show effectsWeight r.focusEffects ≤ 3
  unfold Route.focusEffects
  split
  · exact Nat.le_refl 3
  · exact Nat.zero_le 3

/-- A move mounts one screen at most. -/
theorem effectsWeight_moved (ui : Ui) (nav : Option Nav) :
    effectsWeight (moved ui nav).2 ≤ navWeight nav := by
  cases nav with
  | none => exact Nat.le_refl 0
  | some nav =>
      cases nav with
      | replace name => exact Nat.le_of_eq (effectsWeight_mount ..)
      | reset name => exact Nat.le_of_eq (effectsWeight_mount ..)
      | navigate name dates =>
          simp only [moved, Ui.navigate, navWeight]
          split
          · exact Nat.zero_le _
          · split
            · exact Nat.le_trans (Nat.le_of_eq (effectsWeight_mount ..)) (Nat.le_max_left ..)
            · exact Nat.le_trans (effectsWeight_refocus ..) (Nat.le_max_right ..)
      | goBack =>
          simp only [moved, Ui.navigate, navWeight]
          split
          · exact Nat.zero_le _
          · exact effectsWeight_refocus ..

/-- What a stretch of a handler leaves to do. -/
theorem weight_perform {σ α : Type} (lift : (σ → σ) → Screen → Screen) (wrap : α → Await)
    (key : Nat) (eff : Effect σ α) (ui : Ui) :
    (ui.perform lift wrap key eff).2.weight awaitWeight ≤
      navWeight eff.navigate + ((eff.requests.map wrap).map awaitWeight).sum := by
  rw [perform_eq]
  exact Nat.add_le_add_right (effectsWeight_moved ui eff.navigate) _

/-! ## Continuations and events -/

/-- A continuation of `LOGIN` issues less than it weighs. -/
theorem login_resume_weight (r : Login.Ready) :
    navWeight r.resume.navigate + ((r.resume.requests.map Await.login).map awaitWeight).sum <
      readyWeight (.login r) := by
  cases r with
  | isUserLoggedIn key info =>
      simp only [Login.Ready.resume]
      cases Login.hasEmail info with
      | true => exact Nat.lt_succ_self 3
      | false => exact Nat.succ_pos 3
  | getUsers call data =>
      show navWeight (Login.afterUsers call data).navigate + _ < 6
      rcases Login.afterUsers_cases call data with ⟨-, hEq⟩ | ⟨user, -, -, hEq⟩
      · simp [Login.Ready.resume, hEq, navWeight]
      · simp [Login.Ready.resume, hEq, navWeight, awaitWeight]
  | setLoggedIn call record => exact Nat.lt_succ_self 3

theorem signup_resume_weight (r : Signup.Ready) :
    navWeight r.resume.navigate + ((r.resume.requests.map Await.signup).map awaitWeight).sum <
      readyWeight (.signup r) := by
  cases r with
  | getUsers call data =>
      show navWeight (Signup.afterUsers call data).navigate + _ < 8
      rcases Signup.afterUsers_cases call data with ⟨-, hEq⟩ | ⟨-, hEq⟩
      · simp [Signup.Ready.resume, hEq, navWeight]
      · simp [Signup.Ready.resume, hEq, navWeight, awaitWeight]
  | setUsers call => exact Nat.lt_succ_self 5
  | setLoggedIn call => exact Nat.lt_succ_self 3

/-- A continuation of the list issues less than it weighs. -/
theorem list_resume_weight (r : MembersList.Ready) :
    navWeight r.resume.navigate + ((r.resume.requests.map Await.list).map awaitWeight).sum <
      readyWeight (.list r) := by
  cases r with
  | getDraft key list =>
      cases list with
      | none => exact Nat.lt_succ_self 2
      | some list =>
          cases list with
          | nil => exact Nat.lt_succ_self 2
          | cons m ms => exact Nat.succ_pos 2
  | getMembers key list => exact Nat.succ_pos 0
  | handleSubmit key => exact Nat.lt_succ_self 3

/-- A continuation leaves less to do than there was before it ran. -/
theorem resume_weight (r : Ready) (ui : Ui) :
    (app.resume r ui).2.weight awaitWeight < readyWeight r := by
  cases r with
  | login r => exact Nat.lt_of_le_of_lt (weight_perform ..) (login_resume_weight r)
  | signup r => exact Nat.lt_of_le_of_lt (weight_perform ..) (signup_resume_weight r)
  | home r =>
      refine Nat.lt_of_le_of_lt (weight_perform ..) ?_
      cases r with
      | getUserInfo key info => exact Nat.succ_pos 0
      | logout id key => exact Nat.lt_succ_self 6
  | create r =>
      cases r with
      | fetchMembers key list =>
          rw [resume_fetchMembers]
          exact Nat.lt_of_le_of_lt (weight_perform ..) Nat.zero_lt_one
      | handleBack => exact Nat.zero_lt_one
  | list r => exact Nat.lt_of_le_of_lt (weight_perform ..) (list_resume_weight r)

theorem login_handle_weight {key id : Nat} {s : Login.State} {e : Login.Event}
    {eff : Effect Login.State Login.Await} (h : Login.handle key id s e = some eff) :
    navWeight eff.navigate + ((eff.requests.map Await.login).map awaitWeight).sum ≤ 9 := by
  unfold Login.handle at h
  split at h
  · simp at h
  · rw [Option.some.injEq] at h
    subst h
    cases e with
    | handleSubmit =>
        cases hAccepted : s.accepted with
        | true => simp [Login.handleSubmit_accepted hAccepted, navWeight, awaitWeight]
        | false => simp [Login.handleSubmit_rejected hAccepted, navWeight]
    | changeEmail val => exact Nat.zero_le 9
    | changePassword val => exact Nat.zero_le 9
    | toggleSwitch => exact Nat.zero_le 9
    | signupLink => exact Nat.zero_le 9

theorem signup_handle_weight (key id : Nat) (s : Signup.State) (e : Signup.Event) :
    navWeight (Signup.handle key id s e).navigate +
      (((Signup.handle key id s e).requests.map Await.signup).map awaitWeight).sum ≤ 9 := by
  cases e with
  | handleSubmit =>
      cases hAccepted : s.accepted with
      | true => simp [Signup.handle, Signup.handleSubmit_accepted hAccepted, navWeight, awaitWeight]
      | false => simp [Signup.handle, Signup.handleSubmit_rejected hAccepted, navWeight]
  | changeName val => exact Nat.zero_le 9
  | changeEmail val => exact Nat.zero_le 9
  | changePassword val => exact Nat.zero_le 9
  | toggleSwitch => exact Nat.zero_le 9
  | loginLink => exact (by decide : 6 ≤ 9)

theorem list_handle_weight {key : Nat} {s : MembersList.State} {e : MembersList.Event}
    {eff : Effect MembersList.State MembersList.Await}
    (h : MembersList.handle key s e = some eff) :
    navWeight eff.navigate + ((eff.requests.map Await.list).map awaitWeight).sum ≤ 9 := by
  cases e with
  | arrow =>
      rw [MembersList.handle, Option.some.injEq] at h
      subst h
      exact (by decide : 3 ≤ 9)
  | handleSubmit =>
      rw [MembersList.handle, Option.some.injEq] at h
      subst h
      exact (by decide : 5 ≤ 9)
  | memberPress i =>
      rw [MembersList.handle, Option.map_eq_some_iff] at h
      obtain ⟨item, -, rfl⟩ := h
      exact Nat.zero_le 9
  | memberValChange i val =>
      rw [MembersList.handle, Option.map_eq_some_iff] at h
      obtain ⟨item, -, rfl⟩ := h
      exact Nat.zero_le 9

/-- An event issues work of at most nine steps. -/
theorem handle_weight {e : Event} {ui : Ui} {out : Ui × Issued Await}
    (h : app.handle e ui = some out) : out.2.weight awaitWeight ≤ 9 := by
  cases handle_cases h with
  | login hs hEff => exact Nat.le_trans (weight_perform ..) (login_handle_weight hEff)
  | signup hs => exact Nat.le_trans (weight_perform ..) (signup_handle_weight ..)
  | @home s e hs =>
      refine Nat.le_trans (weight_perform ..) ?_
      cases e with
      | logout => exact (by decide : 8 ≤ 9)
      | createTask dates => exact (by decide : 3 ≤ 9)
  | @create s e hs =>
      refine Nat.le_trans (weight_perform ..) ?_
      cases e with
      | addMembers => exact (by decide : 5 ≤ 9)
      | handleBack => exact (by decide : 5 ≤ 9)
      | changeName val => exact Nat.zero_le 9
      | changeDesc val => exact Nat.zero_le 9
      | pressLabel p => exact Nat.zero_le 9
      | pressDate p => exact Nat.zero_le 9
      | confirm p date => exact Nat.zero_le 9
      | cancel p => exact Nat.zero_le 9
  | list hs hEff => exact Nat.le_trans (weight_perform ..) (list_handle_weight hEff)
  | systemBack =>
      have hMoved := effectsWeight_moved (counted ui) (some .goBack)
      exact Nat.le_trans hMoved (by decide : 3 ≤ 9)

/-- The weights, and what an event and a start add at most. -/
def budget : Budget app where
  await := awaitWeight
  ready := readyWeight
  await_pos a := by
    rcases a with (_ | _ | _) | (_ | _ | _) | (_ | _) | (_ | _) | (_ | _ | _) <;>
      exact Nat.succ_pos _
  serve a d := by
    rcases a with (_ | _ | _) | (_ | _ | _) | (_ | _) | (_ | _) | (_ | _ | _) <;>
      exact Nat.lt_succ_self _
  resume := resume_weight
  user := 9
  start := 6
  handle _ _ _ h := handle_weight h
  launch _ := Nat.le_refl 6

/-! ## Whole runs -/

/-- **No activity without cause.**  The steps of the application and of its store, in a whole
run, are bounded by the user events and the starts of the process. -/
theorem activity_is_bounded (xs : List Action) (s : State) (hRun : run xs = some s) :
    xs.countP Action.isInternal + budget.work s ≤
      6 + 9 * xs.countP Action.isUser + 6 * xs.countP Action.isKill :=
  budget.exec_bound hRun

/-- Ann signs up, and the process is killed after her account has been written. -/
def annIsCut : List Action :=
  loaded ++ [openSignup] ++ fillSignup (js "ann@x.co") (js "pw") (js "Ann") ++ [pressSignup] ++
    answered ++ answered ++ [.kill] ++ loaded

/-- Ann's run stays within its bound. -/
theorem activity_is_bounded_ann :
    ∃ s, run annIsCut = some s ∧ 10 + budget.work s ≤ 6 + 9 * 5 + 6 * 1 := by
  obtain ⟨s, hRun⟩ := Option.isSome_iff_exists.mp
    (show (run annIsCut).isSome = true by decide +kernel)
  exact ⟨s, hRun, activity_is_bounded annIsCut s hRun⟩

/-- **Left alone, the application comes to rest.**  However the store orders its work and
whatever it refuses, the steps that follow a state without a user event are limited by the
state; a run of them that cannot be continued has come to a quiescent state, and one in
order exists. -/
theorem left_alone_it_settles (s : State) :
    (∀ (xs : List Action) (s' : State), (∀ x ∈ xs, x.isInternal = true) →
      app.exec s xs = some s' → xs.length ≤ budget.work s ∧
        ((∀ x : Action, x.isInternal = true → app.step s' x = none) → s'.Quiescent)) ∧
      ∃ (xs : List Action) (s' : State), (∀ x ∈ xs, x.isInternal = true ∧ x.InOrder) ∧
        app.exec s xs = some s' ∧ s'.Quiescent := by
  refine ⟨fun xs s' hInternal hRun => ⟨?_, fun hStuck => ?_⟩, settles budget.toWeights s⟩
  · have hBound := budget.toWeights.exec_bound hInternal hRun
    omega
  · by_contra hBusy
    obtain ⟨x, hx, -, m, hStep⟩ := exists_internal (P := app) hBusy
    rw [app.step_iff.symm, hStuck x hx] at hStep
    simp at hStep

end TaskManager.Runs
