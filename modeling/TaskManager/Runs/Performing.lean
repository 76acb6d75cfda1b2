import TaskManager.Runs.Registry
import TaskManager.Runs.Settling

/-!
# What the registry allows can be performed

`registry_refined` is about the sequences of operations that are performed.  Here
it is shown that they are there: in every state that stands for a registry, every
operation that is allowed and offered is performed in some run.  The application
settles, the user turns to the form he needs and fills it in, and the handler of
his press is done at some point, or is left at any of the calls it makes.

## Main results

* `exists_performs` — one operation, from any state that refines a registry.
* `every_sequence_performed` — sequences of operations of any length.
-/

namespace TaskManager.Runs

open TaskManager.Verified
open TaskManager.Verified.JsText
open TaskManager.Verified.EventLoop
open TaskManager.Verified.Refinement
open TaskManager.Shared
open TaskManager.Pages
open TaskManager.Routes
open TaskManager.App

/-! ## What is offered -/

/-- The calls on the store that an operation makes, run to its end. -/
def Op.calls (g : Accounts) : Op → Nat
  | .signup a _ => if Taken g a.isAdmin a.email then 1 else 3
  | .login isAdmin email password _ => if Knows g isAdmin email password then 2 else 1
  | .logout => 1
  | .relaunch => 0

/-- The forms are offered to a visitor, and the logout to one who is logged in;
a submit is cut at one of the calls it makes. -/
def Op.Offered (g : Accounts) : Op → Prop
  | .signup a cut =>
      g.current = none ∧ ∀ calls ∈ cut, calls ≤ Op.calls g (.signup a cut)
  | .login isAdmin email password cut =>
      g.current = none ∧
        ∀ calls ∈ cut, calls ≤ Op.calls g (.login isAdmin email password cut)
  | .logout => g.current.isSome = true
  | .relaunch => True

instance (g : Accounts) : DecidablePred (Op.Offered g)
  | .signup .. => inferInstanceAs (Decidable (_ ∧ ∀ calls ∈ _, calls ≤ _))
  | .login .. => inferInstanceAs (Decidable (_ ∧ ∀ calls ∈ _, calls ≤ _))
  | .logout => inferInstanceAs (Decidable (_ = true))
  | .relaunch => inferInstanceAs (Decidable True)

/-! ## Going on -/

theorem exists_settles (c : State) : ∃ s, Settles c s := by
  obtain ⟨xs, s, hAll, hRun, hQuiet⟩ := settles budget.toWeights c
  refine ⟨s, xs, hRun, fun x hx => ?_, hQuiet⟩
  obtain ⟨hInternal, hOrder⟩ := hAll x hx
  refine ⟨hOrder, fun e he => ?_, fun hKill => ?_⟩
  · simp [he, Action.isInternal] at hInternal
  · simp [hKill, Action.isInternal] at hInternal

theorem Browses.refl (s : State) : Browses s s := ⟨[], rfl, by simp⟩

theorem Browses.trans {s m s' : State} (h : Browses s m) (hRest : Browses m s') :
    Browses s s' := by
  obtain ⟨xs, hRun, hBefore⟩ := h
  obtain ⟨ys, hGoes, hAfter⟩ := hRest
  refine ⟨xs ++ ys, ?_, fun p hp => ?_⟩
  · rw [app.exec_append, hRun]
    exact hGoes
  · rw [app.trace_append ys hRun] at hp
    exact (List.mem_append.mp hp).elim (hBefore p) (hAfter p)

/-- The user does something that asks nothing of the store. -/
theorem browses_user {s : State} {e : Event} {out : Ui × Issued Await}
    (hOut : app.handle e s.ui = some out) (hTask : NoTask e) (hNone : out.2.requests = []) :
    Browses s (s.issue out) := by
  have hStep := app.exec_snoc (app.exec_nil s) (.user hOut)
  refine ⟨[.user e], hStep, fun p hp => ?_⟩
  obtain rfl : p = (s, .user e) := by
    rw [app.trace_cons [] (.user hOut)] at hp
    exact List.mem_singleton.mp hp
  refine ⟨trivial, hTask, fun out' hOut' => ?_⟩
  rw [hOut] at hOut'
  exact Option.some.inj hOut' ▸ hNone

/-! ## The two forms -/

/-- A visitor sees one of the two forms. -/
theorem Refines.form {g : Accounts} {s : State} (h : Refines g s) (hQuiet : s.Quiescent)
    (hVisitor : g.current = none) :
    (∃ st, s.ui.focused.screen = .AUTH (.LOGIN st) ∧ st.isLoading = false) ∨
      ∃ st, s.ui.focused.screen = .AUTH (.SIGNUP st) := by
  obtain ⟨xs, hRun, hSteps⟩ := h.run
  have hInv := settling_run hRun hSteps
  have hNot : s.ui.focused.screen.name ≠ .HOME := by
    rw [Ne, h.home_iff hQuiet, hVisitor]
    simp
  cases hScreen : s.ui.focused.screen with
  | AUTH form =>
      cases form with
      | LOGIN st => exact Or.inl ⟨st, rfl, hInv.isLoading hQuiet hScreen⟩
      | SIGNUP st => exact Or.inr ⟨st, rfl⟩
  | HOME st => simp [hScreen, Screen.name] at hNot
  | CREATE st => simpa [hScreen, Screen.name] using hInv.one.name
  | LIST st => simpa [hScreen, Screen.name] using hInv.one.name

/-- `m` is at rest on `SIGNUP`, in the state `st`. -/
structure OnSignup (m : State) (st : Signup.State) : Prop where
  quiet : m.Quiescent
  screen : m.ui.focused.screen = .AUTH (.SIGNUP st)

/-- `m` is at rest on `LOGIN`, in the state `st`, which has loaded. -/
structure OnLogin (m : State) (st : Login.State) : Prop where
  quiet : m.Quiescent
  screen : m.ui.focused.screen = .AUTH (.LOGIN st)
  loaded : st.isLoading = false

/-- Nothing waits after an event that asks for nothing. -/
theorem quiescent_issue {s : State} {out : Ui × Issued Await} (h : s.Quiescent)
    (hNone : out.2 = {}) : (s.issue out).Quiescent := by
  refine ⟨?_, ?_, h.served⟩
  · simp [State.issue, hNone, h.effects]
  · simp [State.issue, hNone, h.pending]

/-- An event of `SIGNUP` that only sets its state. -/
theorem OnSignup.sets {m : State} {st : Signup.State} (h : OnSignup m st) {e : Signup.Event}
    {f : Signup.State → Signup.State}
    (hEff : Signup.handle m.ui.focused.key m.ui.nextCall st e = { update := f }) :
    ∃ m', Browses m m' ∧ OnSignup m' (f st) := by
  have hOut : app.handle (.signup e) m.ui =
      some ((counted m.ui).modify m.ui.focused.key (Screen.onSignup f), {}) := by
    simp [app, App.handle, h.screen, hEff, perform_eq, moved]
  refine ⟨_, browses_user hOut trivial rfl, quiescent_issue h.quiet rfl, ?_⟩
  simp [State.issue, Ui.modify, counted, h.screen, Screen.onSignup]

/-- An event of `LOGIN` that only sets its state. -/
theorem OnLogin.sets {m : State} {st : Login.State} (h : OnLogin m st) {e : Login.Event}
    {f : Login.State → Login.State}
    (hEff : Login.handle m.ui.focused.key m.ui.nextCall st e = some { update := f }) :
    ∃ m', Browses m m' ∧ OnLogin m' (f st) := by
  have hOut : app.handle (.login e) m.ui =
      some ((counted m.ui).modify m.ui.focused.key (Screen.onLogin f), {}) := by
    simp [app, App.handle, h.screen, hEff, perform_eq, moved]
  refine ⟨_, browses_user hOut trivial rfl, quiescent_issue h.quiet rfl, ?_, ?_⟩
  · simp [State.issue, Ui.modify, counted, h.screen, Screen.onLogin]
  · rw [Login.handle_isLoading hEff, h.loaded]

/-- The link of `LOGIN` opens `SIGNUP`. -/
theorem OnLogin.turns {m : State} {st : Login.State} (h : OnLogin m st)
    (hBelow : m.ui.below = []) : ∃ m', Browses m m' ∧ OnSignup m' {} := by
  let eff : Effect Login.State Login.Await := { navigate := some (.replace .SIGNUP) }
  have hOut : app.handle (.login .signupLink) m.ui =
      some ((counted m.ui).perform Screen.onLogin .login m.ui.focused.key eff) := by
    simp [app, App.handle, h.screen, Login.handle, h.loaded, eff]
  have hCounted : (counted m.ui).below = [] := hBelow
  have hMount : Mounted m.ui.nextKey .SIGNUP
      ((counted m.ui).perform Screen.onLogin Await.login m.ui.focused.key eff) :=
    mounted_perform _ _ hCounted (Or.inl rfl) rfl
  refine ⟨_, browses_user hOut trivial (by simp [eff, requests_perform]),
    ⟨?_, ?_, h.quiet.served⟩, by rw [State.issue, hMount.focused]; rfl⟩
  · simp [State.issue, hMount.effects, hMount.focused, h.quiet.effects, Route.mountEffects,
      Screen.mount]
  · simp [State.issue, requests_perform, eff, h.quiet.pending]

/-- The link of `SIGNUP` opens `LOGIN`, which then loads. -/
theorem OnSignup.turns {g : Accounts} {m : State} {st : Signup.State} (hRef : Refines g m)
    (h : OnSignup m st) (hBelow : m.ui.below = []) (hVisitor : g.current = none) :
    ∃ m' st', Browses m m' ∧ OnLogin m' st' := by
  let eff : Effect Signup.State Signup.Await := { navigate := some (.replace .LOGIN) }
  let out := (counted m.ui).perform Screen.onSignup Await.signup m.ui.focused.key eff
  have hOut : app.handle (.signup .loginLink) m.ui = some out := by
    simp [app, App.handle, h.screen, Signup.handle, eff, out]
  have hCounted : (counted m.ui).below = [] := hBelow
  have hMount : Mounted m.ui.nextKey .LOGIN out :=
    mounted_perform _ _ hCounted (Or.inl rfl) rfl
  have hTurned : Browses m (m.issue out) :=
    browses_user hOut trivial (by simp [out, eff, requests_perform])
  have hScreen : (m.issue out).ui.focused.screen = .AUTH (.LOGIN {}) := by
    rw [State.issue, hMount.focused]
    rfl
  obtain ⟨m', hSettles⟩ := exists_settles (m.issue out)
  obtain ⟨hBrowse, hQuiet⟩ := hSettles.browses
  have hNow := hRef.browses (hTurned.trans hBrowse)
  have hOne : OneScreen (m.issue out).ui := ⟨hMount.below, Or.inl (by rw [hScreen]; rfl)⟩
  have hBare := hSettles.bare (hRef.browses hTurned).calm hOne (Or.inr ⟨{}, hScreen, rfl⟩)
  obtain ⟨st', hLogin, hLoaded⟩ | ⟨st', hSignup⟩ := hNow.form hQuiet hVisitor
  · exact ⟨m', st', hTurned.trans hBrowse, hQuiet, hLogin, hLoaded⟩
  · rcases hBare with hHome | ⟨st'', hLogin, -⟩
    · simp [hSignup, Screen.name] at hHome
    · simp [hSignup] at hLogin

/-! ## Filling in a form -/

/-- The user fills in `SIGNUP`. -/
theorem OnSignup.fills {m : State} {st : Signup.State} (h : OnSignup m st) (a : Account) :
    ∃ m', Browses m m' ∧ m'.Quiescent ∧ SignupForm m' a := by
  obtain ⟨m₁, hEmail, h₁⟩ := h.sets (e := .changeEmail a.email) rfl
  obtain ⟨m₂, hPassword, h₂⟩ := h₁.sets (e := .changePassword a.password) rfl
  obtain ⟨m₃, hName, h₃⟩ := h₂.sets (e := .changeName a.name) rfl
  have hTyped := (hEmail.trans hPassword).trans hName
  by_cases hRole : st.isAdmin = a.isAdmin
  · refine ⟨m₃, hTyped, h₃.quiet, _, h₃.screen, ?_⟩
    show a = ⟨a.email, a.password, a.name, st.isAdmin⟩
    rw [hRole]
  · obtain ⟨m₄, hToggle, h₄⟩ := h₃.sets (e := .toggleSwitch) rfl
    refine ⟨m₄, hTyped.trans hToggle, h₄.quiet, _, h₄.screen, ?_⟩
    have hOther : (!st.isAdmin) = a.isAdmin := Bool.not_eq.mpr hRole
    show a = ⟨a.email, a.password, a.name, !st.isAdmin⟩
    rw [hOther]

/-- The user fills in `LOGIN`. -/
theorem OnLogin.fills {m : State} {st : Login.State} (h : OnLogin m st) (isAdmin : Bool)
    (email password : JsString) :
    ∃ m', Browses m m' ∧ m'.Quiescent ∧ LoginForm m' isAdmin email password := by
  obtain ⟨m₁, hEmail, h₁⟩ := h.sets (e := .changeEmail email) (if_neg (by simp [h.loaded]))
  obtain ⟨m₂, hPassword, h₂⟩ :=
    h₁.sets (e := .changePassword password) (if_neg (by simp [h.loaded]))
  have hTyped := hEmail.trans hPassword
  by_cases hRole : st.isAdmin = isAdmin
  · exact ⟨m₂, hTyped, h₂.quiet, _, h₂.screen, hRole, rfl, rfl⟩
  · obtain ⟨m₃, hToggle, h₃⟩ :=
      h₂.sets (e := .toggleSwitch) (if_neg (by simp [h.loaded]))
    have hOther : (!st.isAdmin) = isAdmin := Bool.not_eq.mpr hRole
    exact ⟨m₃, hTyped.trans hToggle, h₃.quiet, _, h₃.screen, hOther, rfl, rfl⟩

theorem Refines.below {g : Accounts} {s : State} (h : Refines g s) : s.ui.below = [] := by
  obtain ⟨xs, hRun, hSteps⟩ := h.run
  exact (settling_run hRun hSteps).one.below

/-- A visitor can fill in `SIGNUP`, whatever is shown. -/
theorem Refines.reaches_signup {g : Accounts} {s : State} (h : Refines g s)
    (hVisitor : g.current = none) (a : Account) :
    ∃ m, Browses s m ∧ m.Quiescent ∧ SignupForm m a := by
  obtain ⟨m, hSettles⟩ := exists_settles s
  obtain ⟨hBrowse, hQuiet⟩ := hSettles.browses
  have hNow := h.browses hBrowse
  obtain ⟨st, hLogin, hLoaded⟩ | ⟨st, hSignup⟩ := hNow.form hQuiet hVisitor
  · obtain ⟨m₁, hTurns, hOn⟩ := OnLogin.turns ⟨hQuiet, hLogin, hLoaded⟩ hNow.below
    obtain ⟨m₂, hFills, hDone⟩ := hOn.fills a
    exact ⟨m₂, (hBrowse.trans hTurns).trans hFills, hDone⟩
  · obtain ⟨m₁, hFills, hDone⟩ := OnSignup.fills ⟨hQuiet, hSignup⟩ a
    exact ⟨m₁, hBrowse.trans hFills, hDone⟩

/-- A visitor can fill in `LOGIN`, whatever is shown. -/
theorem Refines.reaches_login {g : Accounts} {s : State} (h : Refines g s)
    (hVisitor : g.current = none) (isAdmin : Bool) (email password : JsString) :
    ∃ m, Browses s m ∧ m.Quiescent ∧ LoginForm m isAdmin email password := by
  obtain ⟨m, hSettles⟩ := exists_settles s
  obtain ⟨hBrowse, hQuiet⟩ := hSettles.browses
  have hNow := h.browses hBrowse
  obtain ⟨st, hLogin, hLoaded⟩ | ⟨st, hSignup⟩ := hNow.form hQuiet hVisitor
  · obtain ⟨m₁, hFills, hDone⟩ := OnLogin.fills ⟨hQuiet, hLogin, hLoaded⟩ isAdmin email password
    exact ⟨m₁, hBrowse.trans hFills, hDone⟩
  · obtain ⟨m₁, st₁, hTurns, hOn⟩ :=
      OnSignup.turns hNow ⟨hQuiet, hSignup⟩ hNow.below hVisitor
    obtain ⟨m₂, hFills, hDone⟩ := hOn.fills isAdmin email password
    exact ⟨m₂, (hBrowse.trans hTurns).trans hFills, hDone⟩

/-! ## The press -/

/-- The handler of a press is done at some point. -/
theorem exists_completes {m : State} {e : Event} {a : Await} (hIdle : m.Quiescent)
    (hPress : Pressed m.ui e a) (hBack : e ≠ .create .handleBack) :
    ∃ c, Completes m (.user e) c := by
  have hOne : (begun m a).pending.length ≤ 1 := by simp [pending_begun hIdle.pending]
  obtain ⟨n, c, hEnd⟩ := budget.toWeights.completes oneAtATime hOne hIdle.served
  exact ⟨c, n, exec_completed hPress hBack hIdle.pending hIdle.served hEnd⟩

/-- A handler that can be left in the middle is left there in a run. -/
theorem cutShort_of_interrupted {m c : State} {e : Event} {a : Await} {calls : Nat}
    (hIdle : m.Quiescent) (hPress : Pressed m.ui e a) (hBack : e ≠ .create .handleBack)
    (h : app.Interrupted (begun m a) calls c) : CutShort m (.user e) calls c := by
  obtain ⟨k, performed, hCalls, hRun, hWaits⟩ := h.exec hIdle.served
  refine ⟨k, performed, hCalls, ?_, hWaits⟩
  rw [exec_pressed hPress hBack]
  exact hRun

/-- A submit of `SIGNUP` can be left at each of its calls. -/
theorem exists_signup_cut {g : Accounts} {m : State} (hMatch : Matches g m.disk)
    (hIdle : m.Quiescent) (call : Signup.Call) {cut : Option Nat} {calls : Nat}
    (hCalls : calls ≤ Op.calls g (.signup call.account cut)) :
    ∃ c, app.Interrupted (begun m (.signup (.getUsers call))) calls c := by
  have hFirst := pending_begun hIdle.pending (.signup (.getUsers call))
  match calls with
  | 0 => exact ⟨_, .waiting hFirst⟩
  | 1 => exact ⟨_, .performed hFirst⟩
  | calls + 2 =>
      by_cases hTaken : Taken g call.account.isAdmin call.account.email
      · rw [Op.calls, if_pos hTaken] at hCalls
        omega
      · have hNew : ∀ u ∈ m.disk.accounts call.isAdmin, u.email ≠ call.email := by
          intro u hu hEmail
          exact hTaken (hMatch.taken_iff.mpr ⟨u, hu, hEmail⟩)
        have hRead :=
          GoesOn.answer (s := begun m (.signup (.getUsers call))) (goesOn_signup hNew)
        have hSecond : (app.answer (begun m (.signup (.getUsers call)))
            (.signup (.getUsers call))).pending =
              [.signup (.setUsers call (m.disk.accounts call.isAdmin))] := by
          rw [hRead]
          rfl
        rw [Op.calls, if_neg hTaken] at hCalls
        obtain rfl | rfl : calls = 0 ∨ calls = 1 := by omega
        · exact ⟨_, .later hFirst (.performed hSecond)⟩
        · exact ⟨_, .later hFirst (.later hSecond (.performed rfl))⟩

/-- A submit of `LOGIN` can be left at each of its calls. -/
theorem exists_login_cut {g : Accounts} {m : State} (hMatch : Matches g m.disk)
    (hIdle : m.Quiescent) (call : Login.Call) {password : JsString} {cut : Option Nat}
    {calls : Nat} (hCalls : calls ≤ Op.calls g (.login call.isAdmin call.email password cut)) :
    ∃ c, app.Interrupted (begun m (.login (.getUsers call))) calls c := by
  have hFirst := pending_begun hIdle.pending (.login (.getUsers call))
  match calls with
  | 0 => exact ⟨_, .waiting hFirst⟩
  | 1 => exact ⟨_, .performed hFirst⟩
  | calls + 2 =>
      by_cases hKnows : Knows g call.isAdmin call.email password
      · obtain ⟨p, hp, -⟩ := Option.map_eq_some_iff.mp hKnows
        have hFind := hMatch.find call.isAdmin call.email
        rw [hp, Option.map_some] at hFind
        have hRead :=
          GoesOn.answer (s := begun m (.login (.getUsers call))) (goesOn_login hFind)
        have hSecond : (app.answer (begun m (.login (.getUsers call)))
            (.login (.getUsers call))).pending =
              [.login (.setLoggedIn call (accountOf call.isAdmin call.email p))] := by
          rw [hRead]
        rw [Op.calls, if_pos hKnows] at hCalls
        obtain rfl : calls = 0 := by omega
        exact ⟨_, .later hFirst (.performed hSecond)⟩
      · rw [Op.calls, if_neg hKnows] at hCalls
        omega

/-! ## Operations -/

/-- **What is allowed and offered can be performed.** -/
theorem exists_performs {g : Accounts} {s : State} {op : Op} (h : Refines g s)
    (hAllowed : Op.Allowed g op) (hOffered : Op.Offered g op) : ∃ s', Performs s op s' := by
  cases op with
  | signup a cut =>
      obtain ⟨hVisitor, hCut⟩ := hOffered
      obtain ⟨m, hBrowse, hIdle, hForm⟩ := h.reaches_signup hVisitor a
      have hMatch := (h.browses hBrowse).matching
      obtain ⟨call, rfl, -, hPress⟩ := hForm.pressed hAllowed
      cases cut with
      | none =>
          obtain ⟨c, hRun⟩ := exists_completes hIdle hPress (by simp)
          obtain ⟨s', hSettles⟩ := exists_settles c
          exact ⟨s', .signup hBrowse hIdle hForm hRun hSettles⟩
      | some calls =>
          obtain ⟨c, hEnd⟩ := exists_signup_cut hMatch hIdle call (hCut calls rfl)
          obtain ⟨s', hSettles⟩ := exists_settles (app.boot c.disk c.ui)
          exact ⟨s', .signupCut hBrowse hIdle hForm
            (cutShort_of_interrupted hIdle hPress (by simp) hEnd) hSettles⟩
  | login isAdmin email password cut =>
      obtain ⟨hVisitor, hCut⟩ := hOffered
      obtain ⟨m, hBrowse, hIdle, hForm⟩ := h.reaches_login hVisitor isAdmin email password
      have hNow := h.browses hBrowse
      obtain ⟨call, rfl, rfl, hPress⟩ := hForm.pressed hNow hIdle hAllowed
      cases cut with
      | none =>
          obtain ⟨c, hRun⟩ := exists_completes hIdle hPress (by simp)
          obtain ⟨s', hSettles⟩ := exists_settles c
          exact ⟨s', .login hBrowse hIdle hForm hRun hSettles⟩
      | some calls =>
          obtain ⟨c, hEnd⟩ := exists_login_cut hNow.matching hIdle call (hCut calls rfl)
          obtain ⟨s', hSettles⟩ := exists_settles (app.boot c.disk c.ui)
          exact ⟨s', .loginCut hBrowse hIdle hForm
            (cutShort_of_interrupted hIdle hPress (by simp) hEnd) hSettles⟩
  | logout =>
      obtain ⟨m, hSettles⟩ := exists_settles s
      obtain ⟨hBrowse, hIdle⟩ := hSettles.browses
      have hHome := ((h.browses hBrowse).home_iff hIdle).mpr hOffered
      obtain ⟨st, hScreen⟩ : ∃ st, m.ui.focused.screen = .HOME st := by
        cases hs : m.ui.focused.screen <;> simp_all [Screen.name]
      obtain ⟨c, hRun⟩ := exists_completes hIdle (.logout hScreen) (by simp)
      obtain ⟨s', hEnd⟩ := exists_settles c
      exact ⟨s', .logout hBrowse hIdle hHome hRun hEnd⟩
  | relaunch =>
      obtain ⟨s', hSettles⟩ := exists_settles (app.boot s.disk s.ui)
      exact ⟨s', .relaunch (.refl s) hSettles⟩

/-- **The runs are there.**  Every sequence of operations in which each is allowed
and offered is performed from the first start of the application. -/
theorem every_sequence_performed (ops : List Op)
    (hAllowed : AllAllowed Op.apply (fun g op => Op.Allowed g op ∧ Op.Offered g op)
      Registry.empty ops) :
    ∃ outs s, PerformsAll PerformsShowing init ops outs s := by
  refine performs_all Refines (fun g s op out s' h hOk hRun => ?_) (fun g s op h hOk => ?_) ops
    refines_init hAllowed
  · exact (performs_refines h hOk.1 hRun.1).2
  · obtain ⟨s', hRun⟩ := exists_performs h hOk.1 hOk.2
    exact ⟨shown s', s', hRun, rfl⟩

/-- Ann is interrupted, returns, leaves and comes back to a new process. -/
example : ∃ outs s, PerformsAll PerformsShowing init (annOps ++ [.logout, .relaunch]) outs s :=
  every_sequence_performed _ (by decide +kernel)

end TaskManager.Runs
