import TaskManager.Verified.InFlight
import TaskManager.App.AuthRoute
import TaskManager.Runs.Stacks

/-!
# `LOGIN` loads

`LOGIN` shows `Loading...` and nothing else until its launch check is reported.  No handler of
the application catches a rejection, so that a check that is refused is never reported.
`Spins` counts the check of the screen with the focus: as long as it loads there is exactly
one, in some queue or among the refused ones, and afterwards there is none.

## Main results

* `spinner_iff_refused` — when nothing waits any more, `LOGIN` loads if and only if its check
  was refused, and then nothing ever happens until the process is killed.
-/

namespace TaskManager.Runs

open TaskManager.Verified.JsText
open TaskManager.Verified.EventLoop
open TaskManager.Shared
open TaskManager.Pages
open TaskManager.Routes
open TaskManager.App

/-! ## The check of a screen -/

/-- The launch check of the screen `key`. -/
def isCheck (key : Nat) (a : Await) : Bool := a = .login (.isUserLoggedIn key)

/-- A served request is the check when it was before. -/
theorem isChecked_serve (key : Nat) (a : Await) (d : Disk) :
    isChecked key (app.serve a d).2 = isCheck key a := by
  rcases a with a | a | a | a | a <;> cases a <;>
    simp [isCheck, isChecked, app, serve, Login.Await.serve, Signup.Await.serve,
      Home.Await.serve, TaskCreation.Await.serve, MembersList.Await.serve]

/-- The checks of the screen that are due or in flight. -/
abbrev checks (key : Nat) (s : State) : Nat := s.outstanding (isCheck key) (isChecked key)

/-- The step refuses the check of the screen. -/
def refusesCheck (key : Nat) (p : State × Action) : Bool :=
  match p.2 with
  | .reject i => p.1.pending[i]? = some (.login (.isUserLoggedIn key))
  | _ => false

/-- How often the check of the screen was refused. -/
abbrev refusals (key : Nat) (h : History) : Nat := h.countP (refusesCheck key)

theorem checks_issue (key : Nat) (s : State) (out : Ui × Issued Await) :
    checks key (s.issue out) =
      checks key s + (out.2.effects.countP (isCheck key) + out.2.requests.countP (isCheck key)) :=
  Program.outstanding_issue out

/-- A screen that has not been mounted has no check. -/
theorem checks_fresh {s : State} (hKeys : KeysBelow s) {key : Nat} (hKey : s.ui.nextKey ≤ key) :
    checks key s = 0 := by
  rw [checks, Program.outstanding_eq_zero_iff]
  constructor
  · intro a ha
    by_contra hCheck
    rw [Bool.not_eq_false, isCheck, decide_eq_true_eq] at hCheck
    subst hCheck
    have hLt : key < s.ui.nextKey := by
      rcases List.mem_append.mp ha with hDue | hWaits
      · exact hKeys.effects _ hDue key rfl
      · exact hKeys.pending _ hWaits key rfl
    omega
  · intro r hr
    by_contra hCheck
    rw [Bool.not_eq_false] at hCheck
    unfold isChecked at hCheck
    split at hCheck
    · rename_i key' info
      have hLt := hKeys.served _ hr key' rfl
      have hSame : key' = key := of_decide_eq_true hCheck
      omega
    · nomatch hCheck

/-- No continuation is a check. -/
theorem isCheck_of_continued {r : Ready} {a : Await} (h : Continued r a) (key : Nat) :
    isCheck key a = false := by
  cases h <;> simp [isCheck]

/-- No press is a check. -/
theorem isCheck_of_pressed {ui : Ui} {e : Event} {a : Await} (h : Pressed ui e a) (key : Nat) :
    isCheck key a = false := by
  cases h <;> simp [isCheck]

theorem countP_isCheck {as : List Await} {key : Nat} (h : ∀ a ∈ as, isCheck key a = false) :
    as.countP (isCheck key) = 0 := by
  rw [List.countP_eq_zero]
  intro a ha
  rw [h a ha]
  simp

/-! ## The invariant -/

/-- The authentication screen loads as long as its check is outstanding, or for ever. -/
structure Spins (h : History) (s : State) : Prop where
  unused : ∀ key, s.ui.nextKey ≤ key → refusals key h = 0
  auth : ∀ key a, s.ui.focused = ⟨key, .AUTH a⟩ →
    checks key s + refusals key h = if a.isLoading then 1 else 0

/-- A screen that has just been mounted has its check before it, if it is `LOGIN`. -/
theorem Spins.mounted {h : History} {s s' : State} (hUnused : refusals s.ui.nextKey h = 0)
    (hNext : ∀ key, s'.ui.nextKey ≤ key → refusals key h = 0) {screen : AuthScreen}
    (hFocused : s'.ui.focused = ⟨s.ui.nextKey, .AUTH screen⟩)
    (hChecks : checks s.ui.nextKey s' = if screen.isLoading then 1 else 0) :
    Spins h s' where
  unused := hNext
  auth key a hSame := by
    have hScreen := hFocused.symm.trans hSame
    simp only [Route.mk.injEq, Screen.AUTH.injEq] at hScreen
    obtain ⟨rfl, rfl⟩ := hScreen
    rw [hChecks, hUnused, Nat.add_zero]

/-- Off the AUTH screen nothing loads. -/
theorem Spins.of_not_auth {h : History} {s : State}
    (hUnused : ∀ key, s.ui.nextKey ≤ key → refusals key h = 0) (hAuth : .AUTH ∉ s.ui.names) :
    Spins h s where
  unused := hUnused
  auth _ _ hFocused := absurd (auth_mem_names hFocused) hAuth

/-! ## Steps -/

section Step

variable {h : History} {s : State}

/-- What the user does leaves the check, or mounts a screen with its own. -/
theorem Spins.user (hSpins : Spins h s) (hKeys : KeysBelow s) (hAlone : AuthAlone s.ui)
    {e : Event} {out : Ui × Issued Await} (hOut : app.handle e s.ui = some out) :
    Spins h (s.issue out) := by
  have hNext : s.ui.nextKey ≤ out.1.nextKey := (hKeys.fresh.handle hOut).next
  have hUnused : ∀ key, out.1.nextKey ≤ key → refusals key h = 0 :=
    fun key hKey => hSpins.unused key (Nat.le_trans hNext hKey)
  have hCount : ∀ key, checks key (s.issue out) =
      checks key s + out.2.effects.countP (isCheck key) := by
    intro key
    rw [checks_issue, countP_isCheck fun a ha => isCheck_of_pressed (handle_requests hOut ha) key]
    rfl
  cases authHandled hAlone hOut with
  | left hAuth => exact .of_not_auth hUnused hAuth
  | mounted hName hMount =>
      have hTotal := hCount s.ui.nextKey
      rw [hMount.effects, hMount.focused, checks_fresh hKeys (Nat.le_refl _)] at hTotal
      rcases hName with rfl | rfl
      · refine .mounted (hSpins.unused _ (Nat.le_refl _)) hUnused hMount.focused ?_
        simpa [Route.mountEffects, Screen.mount, isCheck, AuthScreen.isLoading] using hTotal
      · refine .mounted (hSpins.unused _ (Nat.le_refl _)) hUnused hMount.focused ?_
        simpa [Route.mountEffects, Screen.mount, AuthScreen.isLoading] using hTotal
  | kept hOld hNew hSame hEffects =>
      refine ⟨hUnused, fun key' a'' hFocused => ?_⟩
      have hScreen := hNew.symm.trans hFocused
      simp only [Route.mk.injEq, Screen.AUTH.injEq] at hScreen
      obtain ⟨rfl, rfl⟩ := hScreen
      rw [hCount, hEffects, hSame.isLoading, ← hSpins.auth _ _ hOld]
      rfl

/-- The report of the check ends the loading. -/
theorem Spins.resolve (hSpins : Spins h s) (hKeys : KeysBelow s) (hAlone : AuthAlone s.ui)
    {i : Nat} {r : Ready} (hAt : s.served[i]? = some r) :
    Spins h ({ s with served := s.served.eraseIdx i }.issue (app.resume r s.ui)) := by
  have hNext : s.ui.nextKey ≤ (app.resume r s.ui).1.nextKey := (hKeys.fresh.resume r).next
  have hUnused : ∀ key, (app.resume r s.ui).1.nextKey ≤ key → refusals key h = 0 :=
    fun key hKey => hSpins.unused key (Nat.le_trans hNext hKey)
  have hCount : ∀ key, checks key
      ({ s with served := s.served.eraseIdx i }.issue (app.resume r s.ui)) +
        (if isChecked key r then 1 else 0) =
      checks key s + (app.resume r s.ui).2.effects.countP (isCheck key) := by
    intro key
    have hResolve := Program.outstanding_resolve (p := isCheck key) (q := isChecked key) hAt
      (app.resume r s.ui)
    rw [countP_isCheck fun a ha => isCheck_of_continued (resume_requests ha) key] at hResolve
    exact hResolve
  cases authResumed hAlone r with
  | left hAuth => exact .of_not_auth hUnused hAuth
  | mounted hFocused hOther hEffects =>
      have hTotal := hCount s.ui.nextKey
      rw [hOther, hEffects, checks_fresh hKeys (Nat.le_refl _)] at hTotal
      refine .mounted (hSpins.unused _ (Nat.le_refl _)) hUnused hFocused ?_
      simpa [isCheck, AuthScreen.isLoading] using hTotal
  | @kept key a hOld hNew hEffects =>
      refine ⟨hUnused, fun key' a'' hFocused => ?_⟩
      have hScreen := hNew.symm.trans hFocused
      simp only [Route.mk.injEq, Screen.AUTH.injEq] at hScreen
      obtain ⟨rfl, rfl⟩ := hScreen
      have hBefore := hSpins.auth _ _ hOld
      have hTotal := hCount key
      rw [hEffects, List.countP_nil] at hTotal
      rw [isLoading_toldAuth]
      cases hOwn : isChecked key r with
      | true =>
          simp only [hOwn, if_true] at hTotal
          split at hBefore <;> simp only [if_true, Bool.false_eq_true, if_false] <;> omega
      | false =>
          simp only [hOwn, Bool.false_eq_true, if_false] at hTotal ⊢
          omega

/-- A move between the queues that loses no check. -/
theorem Spins.moved (hSpins : Spins h s) {s' : State} (hUi : s'.ui = s.ui)
    (hCount : ∀ key, checks key s' = checks key s) : Spins h s' where
  unused key hKey := hSpins.unused key (hUi ▸ hKey)
  auth key a hFocused := by
    rw [hCount]
    exact hSpins.auth key a (hUi ▸ hFocused)

/-- The refusals of one more step. -/
theorem refusals_snoc (key : Nat) (h : History) (p : State × Action) :
    refusals key (h ++ [p]) = refusals key h + if refusesCheck key p then 1 else 0 := by
  rw [refusals, List.countP_append, List.countP_singleton]

theorem Spins.snoc (hSpins : Spins h s) {p : State × Action}
    (hNot : ∀ key, refusesCheck key p = false) : Spins (h ++ [p]) s where
  unused key hKey := by
    rw [refusals_snoc, hNot, hSpins.unused key hKey]
    rfl
  auth key a hFocused := by
    rw [refusals_snoc, hNot, ← hSpins.auth key a hFocused]
    rfl

/-- A check that is refused is not outstanding any more, and goes into the history. -/
theorem Spins.reject (hSpins : Spins h s) (hKeys : KeysBelow s) {i : Nat} {a : Await}
    (hAt : s.pending[i]? = some a) :
    Spins (h ++ [(s, .reject i)]) { s with pending := s.pending.eraseIdx i } := by
  have hRefused : ∀ key, refusesCheck key (s, .reject i) = isCheck key a := by
    intro key
    simp [refusesCheck, hAt, isCheck]
  refine ⟨fun key hKey => ?_, fun key screen hFocused => ?_⟩
  · have hNew : isCheck key a = false := by
      by_contra hCheck
      rw [Bool.not_eq_false, isCheck, decide_eq_true_eq] at hCheck
      subst hCheck
      have hLt := hKeys.pending _ (List.mem_of_getElem? hAt) key rfl
      exact absurd hLt (Nat.not_lt.mpr hKey)
    rw [refusals_snoc, hRefused, hNew, hSpins.unused key hKey]
    rfl
  · have hBefore := hSpins.auth key screen hFocused
    have hOut := Program.inFlight_reject (p := isCheck key) (q := isChecked key) hAt
    rw [refusals_snoc, hRefused, ← hBefore]
    simp only [checks, State.outstanding]
    omega

/-- A fresh process mounts `LOGIN`, whatever became of the checks before. -/
theorem Spins.boot (hSpins : Spins h s) : Spins h (app.boot s.disk s.ui) := by
  have hFocused : (app.boot s.disk s.ui).ui.focused = ⟨s.ui.nextKey, .AUTH (.LOGIN {})⟩ := rfl
  refine .mounted (hSpins.unused _ (Nat.le_refl _)) ?_ hFocused ?_
  · intro key hKey
    exact hSpins.unused key (Nat.le_of_succ_le hKey)
  · have hEffects : (app.boot s.disk s.ui).effects = [.login (.isUserLoggedIn s.ui.nextKey)] := rfl
    have hPending : (app.boot s.disk s.ui).pending = [] := rfl
    have hServed : (app.boot s.disk s.ui).served = [] := rfl
    simp [checks, State.outstanding, State.inFlight, hEffects, hPending, hServed, isCheck,
      AuthScreen.isLoading]

/-- Every step keeps the spinner turning as long as its check is due or was refused. -/
theorem Spins.step (hSpins : Spins h s) (hKeys : KeysBelow s) (hAlone : AuthAlone s.ui)
    {s' : State} {x : Action} (hx : app.Step s x s') : Spins (h ++ [(s, x)]) s' := by
  cases hx with
  | user hOut => exact (hSpins.user hKeys hAlone hOut).snoc fun _ => rfl
  | effect hAt =>
      refine (hSpins.moved ?_ fun key => Program.outstanding_effect hAt).snoc fun _ => rfl
      rfl
  | serve hAt =>
      refine (hSpins.moved ?_ fun key =>
        Program.outstanding_serve (isChecked_serve key) hAt).snoc fun _ => rfl
      rfl
  | resolve hAt => exact (hSpins.resolve hKeys hAlone hAt).snoc fun _ => rfl
  | reject hAt => exact hSpins.reject hKeys hAt
  | kill => exact hSpins.boot.snoc fun _ => rfl

end Step

/-- So does every run. -/
theorem spins_run {xs : List Action} {s : State} (hRun : run xs = some s) :
    Spins (app.trace init xs) s := by
  refine app.exec_induction (fun _ _ => True) Spins ?_ ?_ (fun _ _ => trivial) hRun
  · refine ⟨fun _ _ => rfl, fun key a hFocused => ?_⟩
    obtain ⟨rfl, rfl⟩ : 0 = key ∧ AuthScreen.LOGIN {} = a := by
      simpa [init, Ui.first] using hFocused
    decide
  · rintro h s x s' ⟨ys, hPre, -⟩ - hSpins hx
    exact hSpins.step (keysBelow_run hPre) (authAlone_run hPre) hx

/-! ## Nothing happens any more -/

/-- Only the back action of the system is taken while `LOGIN` loads, and it goes nowhere. -/
theorem handle_loading {ui : Ui} {key : Nat} {st : Login.State}
    (hFocused : ui.focused = ⟨key, .AUTH (.LOGIN st)⟩) (hLoading : st.isLoading = true)
    (hBelow : ui.below = []) {e : Event} {out : Ui × Issued Await}
    (hOut : app.handle e ui = some out) : out = (counted ui, {}) := by
  have hScreen : ui.focused.screen = .AUTH (.LOGIN st) := by rw [hFocused]
  cases handle_cases hOut with
  | @login st' e eff hs hEff =>
      obtain rfl : st = st' := AuthScreen.LOGIN.inj (Screen.AUTH.inj (hScreen.symm.trans hs))
      have hRefused : Login.handle ui.focused.key ui.nextCall st e = none := if_pos hLoading
      nomatch hRefused.symm.trans hEff
  | signup hs => nomatch hScreen.symm.trans hs
  | home hs => nomatch hScreen.symm.trans hs
  | create hs => nomatch hScreen.symm.trans hs
  | list hs _ => nomatch hScreen.symm.trans hs
  | systemBack =>
      have hNone : (counted ui).navigate .goBack = (counted ui, []) := by
        simp [Ui.navigate, counted, hBelow]
      rw [hNone]

/-- `LOGIN` loads, and nothing waits. -/
structure Stuck (key : Nat) (st : Login.State) (disk : Disk) (s : State) : Prop where
  focused : s.ui.focused = ⟨key, .AUTH (.LOGIN st)⟩
  below : s.ui.below = []
  quiet : s.Quiescent
  disk : s.disk = disk

/-- Where `LOGIN` loads and nothing is under way, no step but a kill changes the screen or
the store. -/
theorem Stuck.step {key : Nat} {st : Login.State} {disk : Disk} {s s' : State} {x : Action}
    (h : Stuck key st disk s) (hLoading : st.isLoading = true) (hAlive : x ≠ .kill)
    (hx : app.Step s x s') : Stuck key st disk s' := by
  obtain ⟨hEffects, hPending, hServed⟩ := h.quiet
  cases hx with
  | user hOut =>
      have hNothing := handle_loading h.focused hLoading h.below hOut
      subst hNothing
      refine ⟨h.focused, h.below, ⟨?_, ?_, hServed⟩, h.disk⟩
      · exact (List.append_nil _).trans hEffects
      · exact (List.append_nil _).trans hPending
  | effect hAt => simp [hEffects] at hAt
  | serve hAt => simp [hPending] at hAt
  | resolve hAt => simp [hServed] at hAt
  | reject hAt => simp [hPending] at hAt
  | kill => exact absurd rfl hAlive

/-- Nor does a run. -/
theorem Stuck.exec {key : Nat} {st : Login.State} {disk : Disk} {s s' : State}
    (h : Stuck key st disk s) (hLoading : st.isLoading = true) {ys : List Action}
    (hAlive : .kill ∉ ys) (hTo : app.exec s ys = some s') : Stuck key st disk s' := by
  refine app.exec_induction (fun _ x => x ≠ .kill) (fun _ s => Stuck key st disk s) h
    (fun _ _ _ _ _ hNot hBefore hx => hBefore.step hLoading hNot hx) ?_ hTo
  intro p hp hKill
  exact hAlive (hKill ▸ app.mem_of_mem_trace hp)

/-- **`LOGIN` hangs.**  When nothing waits any more, `LOGIN` loads if and only if the launch
check of its instance was refused.  Then whatever is done short of killing the process, it
goes on loading, and nothing is stored. -/
theorem spinner_iff_refused (xs : List Action) (s : State) (hRun : run xs = some s)
    (hQuiet : s.Quiescent) (key : Nat) (st : Login.State)
    (hFocused : s.ui.focused = ⟨key, .AUTH (.LOGIN st)⟩) :
    (st.isLoading = true ↔
      ∃ p ∈ app.trace init xs, refusesCheck key p = true) ∧
      (st.isLoading = true → ∀ ys s', .kill ∉ ys → app.exec s ys = some s' →
        s'.ui.focused = s.ui.focused ∧ s'.disk = s.disk) := by
  have hCount := (spins_run hRun).auth key (.LOGIN st) hFocused
  have hNone : checks key s = 0 := by
    rw [checks, Program.outstanding_eq_zero_iff, hQuiet.effects, hQuiet.pending, hQuiet.served]
    simp
  rw [hNone, Nat.zero_add] at hCount
  refine ⟨?_, fun hLoading ys s' hAlive hTo => ?_⟩
  · rw [← List.countP_pos_iff]
    show _ ↔ 0 < refusals key (app.trace init xs)
    rw [hCount, AuthScreen.isLoading]
    cases st.isLoading <;> simp
  · have hBelow := (authAlone_run hRun).below (by rw [hFocused]; rfl)
    have hStuck : Stuck key st s.disk s := ⟨hFocused, hBelow, hQuiet, rfl⟩
    have hStill := hStuck.exec hLoading hAlive hTo
    exact ⟨hStill.focused.trans hFocused.symm, hStill.disk⟩

/-- The very first check is refused. -/
def checkRefused : List Action := [.effect 0, .reject 0]

theorem spinner_iff_refused_stuck :
    ∃ s, run checkRefused = some s ∧ s.ui.focused = ⟨0, .AUTH (.LOGIN {})⟩ ∧
      (∃ p ∈ app.trace init checkRefused, refusesCheck 0 p = true) ∧
      ∀ ys s', .kill ∉ ys → app.exec s ys = some s' →
        s'.ui.focused = s.ui.focused ∧ s'.disk = s.disk := by
  obtain ⟨s, hRun⟩ := Option.isSome_iff_exists.mp
    (show (run checkRefused).isSome = true by decide)
  have hShown : (run checkRefused).map (fun s => s.ui.focused) =
      some ⟨0, .AUTH (.LOGIN {})⟩ := by decide
  have hQueues : (run checkRefused).map (fun s => (s.effects, s.pending, s.served)) =
      some ([], [], []) := by decide
  rw [hRun, Option.map_some, Option.some.injEq] at hShown hQueues
  simp only [Prod.mk.injEq] at hQueues
  have hSpinner := spinner_iff_refused checkRefused s hRun
    ⟨hQueues.1, hQueues.2.1, hQueues.2.2⟩ 0 {} hShown
  exact ⟨s, hRun, hShown, hSpinner.1.mp rfl, hSpinner.2 rfl⟩

end TaskManager.Runs
